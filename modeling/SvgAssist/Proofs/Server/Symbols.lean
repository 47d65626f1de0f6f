import SvgAssist.Proofs.Completion.Hover
import SvgAssist.Proofs.Server.Ranges

/-!
# Symbols

The ranges of the symbols of a document nest and follow one another, and a hover in the selection
range of a symbol shows the element of its name (`symbols_agree`). The hover reads only so many
columns of a line, and shows nothing for a name behind them.
-/

namespace SvgAssist.Server

open Completion Grammar Markup Text

variable {text : Text} {p : ClientPosition}

/-! ## Positions in a name -/

-- The bytes of a tag's name are ASCII, so each is one unit.
theorem units_lineBefore_name {start j : Nat} {name : TagName} (h : StartsTag text start name)
    (hj : j ≤ name.bytes.length) :
    units (lineBefore text (start + 1 + j)) = units (lineBefore text start) + 1 + j := by
  rw [h.lineBefore_name hj, ← List.take_succ_cons,
    units_append_ascii _ (name.plain_less.take _).ascii, List.length_take, List.length_cons,
    Nat.min_eq_left (Nat.succ_le_succ hj)]
  omega

/-- A client position between the ends of a name means an offset there. -/
theorem exists_addresses {start : Nat} {name : TagName} (hlen : text.length < UInt32.size)
    (h : StartsTag text start name) (hlo : clientPositionAt text (start + 1 : Nat) ≤ p)
    (hhi : p ≤ clientPositionAt text (start + 1 + name.bytes.length : Nat)) :
    ∃ j ≤ name.bytes.length, Addresses p text (start + 1 + j) := by
  have hzero := Nat.zero_le name.bytes.length
  rw [← Nat.add_zero (start + 1), clientPositionAt_eq_place (h.caret hzero)] at hlo
  rw [clientPositionAt_eq_place (h.caret le_rfl)] at hhi
  obtain ⟨hlineLo, hunitsLo⟩ := place_addresses hlen (start + 1 + 0)
  obtain ⟨hlineHi, hunitsHi⟩ := place_addresses hlen (start + 1 + name.bytes.length)
  rw [h.count_name hzero] at hlineLo
  rw [h.count_name le_rfl] at hlineHi
  rw [units_lineBefore_name h hzero] at hunitsLo
  rw [units_lineBefore_name h le_rfl] at hunitsHi
  -- Both ends of the name are on its line, so the position is, and its units lie between theirs.
  simp only [ClientPosition.le_def, UInt32.lt_iff_toNat_lt, UInt32.le_iff_toNat_le,
    ← UInt32.toNat_inj] at hlo hhi
  have hj : p.character.toNat - (units (lineBefore text start) + 1) ≤ name.bytes.length := by omega
  refine ⟨_, hj, ?_, ?_⟩
  · rw [h.count_name hj]
    omega
  · rw [units_lineBefore_name h hj]
    omega

/-! ## Hovers -/

theorem elementRemark_eq_unknown_iff (c : Catalog) (name : Text) :
    elementRemark c name = utf8 "unknown element" ↔ c.element? name = none := by
  unfold elementRemark
  cases c.element? name with
  | none => simp
  | some e =>
    simp only [reduceCtorEq, iff_false]
    split <;> decide

section hover

variable {s : Session} {uri : Text} {d : Document} {start : Nat} {name : TagName}
  (h : StartsTag d.text start name) (hdocument : s.documents.get? uri = some d)
  (hlen : d.text.length < UInt32.size) (hlo : clientPositionAt d.text (start + 1 : Nat) ≤ p)
  (hhi : p ≤ clientPositionAt d.text (start + 1 + name.bytes.length : Nat))
include h hdocument hlen hlo hhi

-- Between the ends of a name, its element is shown.
theorem hover_name (hfar : (ofClient d.text
      (clientPositionAt d.text (start + 1 + name.bytes.length : Nat))).column ≤ farColumn) :
    s.hover uri p =
      match s.catalog.element? name.bytes with
      | none => .nothing
      | some e =>
        .hover ⟨(tagHover d.text start name.bytes e).contents,
          ⟨clientPositionAt d.text (start + 1 : Nat),
            clientPositionAt d.text (start + 1 + name.bytes.length : Nat)⟩⟩ := by
  obtain ⟨j, hj, haddresses⟩ := exists_addresses hlen h hlo hhi
  have hstop := place_addresses hlen (start + 1 + name.bytes.length)
  rw [clientPositionAt_eq_place (h.caret le_rfl), hstop.ofClient_eq (h.caret le_rfl)] at hfar
  simp only [Session.hover, hdocument]
  rw [haddresses.ofClient_eq (h.caret hj), hover_at_name s.catalog h hj hfar]
  cases s.catalog.element? name.bytes <;> rfl

-- Nothing is shown for a name that begins behind the columns that are read.
theorem hover_far_name (hfar : farColumn ≤ (lineBefore d.text start).length) :
    s.hover uri p = .nothing := by
  obtain ⟨j, hj, haddresses⟩ := exists_addresses hlen h hlo hhi
  have hbehind : farColumn < (lineBefore d.text (start + 1 + j)).length := by
    rw [h.lineBefore_name hj, List.length_append, List.length_cons]
    omega
  simp only [Session.hover, hdocument]
  rw [haddresses.ofClient_eq (h.caret hj), hover_far s.catalog hbehind]

end hover

/-- A lone tag behind so much text on its line has a symbol and no hover. -/
theorem hover_far_tag {s : Session} {uri front : Text} {d : Document} {name : TagName}
    {attributes : Attributes} (hbudget : s.budget = .unlimited)
    (hdocument : s.documents.get? uri = some d) (hlen : d.text.length < UInt32.size)
    (hless : Byte.less ∉ front) (hline : Byte.newline ∉ front)
    (htext : d.text = front ++ (Node.empty name attributes).render)
    (hfar : farColumn ≤ front.length) :
    ∃ symbol, s.documentSymbol uri = .symbols [symbol] ∧ symbol.name = name.bytes ∧
      symbol.detail = elementRemark s.catalog name.bytes ∧
      symbol.selection.start ≤ symbol.selection.stop ∧
      ∀ p, symbol.selection.start ≤ p → p ≤ symbol.selection.stop → s.hover uri p = .nothing := by
  have hrender : Node.renderAll [.text front hless, .empty name attributes] = d.text := by
    rw [htext, Node.renderAll, Node.renderAll, Node.renderAll, Node.render, List.append_nil]
  obtain ⟨o, hparse, hroots, -⟩ := parse_renderAll [.text front hless, .empty name attributes]
  rw [hrender] at hparse
  set e := Markup.Element.mk name.bytes
    ⟨front.length, front.length + (Node.empty name attributes).render.length⟩ [] with he
  have hsingle : o.roots = [e] := by
    rw [hroots, Node.elementsAll, Node.elementsAll, Node.elementsAll, Node.elements, Node.elements,
      Node.render, Nat.zero_add]
    rfl
  have hplaced : Placed d.text e :=
    placed_of_mem (laminar_of_parse hparse) (hsingle ▸ List.mem_cons_self)
  have hbefore : lineBefore d.text e.span.start = front := by
    rw [htext]
    exact lineBefore_length_append hline _
  refine ⟨Symbol.ofElement s.catalog (.ofText d.text) e, ?_, Symbol.name_ofElement _ _ e,
    Symbol.detail_ofElement _ _ e, ?_, fun p hlo hhi => ?_⟩
  · rw [documentSymbol_of_parse hbudget hdocument hparse (by simp [hsingle]), hsingle,
      Symbol.ofElements, Symbol.ofElements]
  · exact hplaced.selection_le hlen
  · obtain ⟨tagName, hname, htag⟩ := hplaced.covers.isStart.startsTag
    rw [hplaced.selection_eq, ← hname] at hlo hhi
    exact hover_far_name htag hdocument hlen hlo hhi (hbefore ▸ hfar)

/-- The symbols of a document have their ranges nested and in order, and in the selection range of a
symbol, as far as lines are read, a hover is shown unless its element is unknown. It has that range
and begins with the name. -/
theorem symbols_agree {s : Session} {uri : Text} {d : Document} (hbudget : s.budget = .unlimited)
    (hdocument : s.documents.get? uri = some d) (hlen : d.text.length < UInt32.size) :
    ∃ symbols, s.documentSymbol uri = (if symbols = [] then .nothing else .symbols symbols) ∧
      (symbols.Pairwise fun a b => a.range.stop ≤ b.range.start) ∧
      ∀ parent symbol, Symbol.Shows symbols parent symbol →
        symbol.selection.start ≤ symbol.selection.stop ∧
        symbol.selection.Within symbol.range ∧
        (∀ child ∈ symbol.children, child.range.Within symbol.range) ∧
        (symbol.children.Pairwise fun a b => a.range.stop ≤ b.range.start) ∧
        ((ofClient d.text symbol.selection.stop).column ≤ farColumn →
          ∀ p, symbol.selection.start ≤ p → p ≤ symbol.selection.stop →
            (s.hover uri p = .nothing ↔ symbol.detail = utf8 "unknown element") ∧
            (symbol.detail ≠ utf8 "unknown element" →
              ∃ contents, s.hover uri p = .hover ⟨contents, symbol.selection⟩ ∧
                utf8 "\x60<" ++ symbol.name ++ utf8 ">\x60" <+: contents)) := by
  have hparse := parse_unlimited d.text
  have hlaminar := laminar_of_parse hparse
  set o := ((eventsFrom 0 d.text).foldl Draft.step .empty).finish d.text.length
  refine ⟨Symbol.ofElements s.catalog (.ofText d.text) o.roots, ?_, ?_,
    fun parent symbol hshows => ?_⟩
  · by_cases hroots : o.roots = []
    · simp only [Session.documentSymbol, hdocument, hbudget, hparse, hroots, Symbol.ofElements,
        if_true]
    · rw [documentSymbol_of_parse hbudget hdocument hparse hroots]
      obtain ⟨e, es, hes⟩ := List.exists_cons_of_ne_nil hroots
      rw [hes, Symbol.ofElements, if_neg (List.cons_ne_nil _ _)]
  · rw [Symbol.ofElements_eq_map]
    exact ranges_ordered s.catalog hlen (fun e he => placed_of_mem hlaminar he) hlaminar.pairwise
  obtain ⟨e, he, rfl⟩ := (Symbol.shows_ofElements_iff s.catalog (.ofText d.text) o _ _).mp hshows
  have hplaced := placed_of_nests hlaminar he
  refine ⟨hplaced.selection_le hlen, hplaced.selection_within hlen, hplaced.children_within hlen,
    ?_, fun hfar p hlo hhi => ?_⟩
  · rw [Symbol.children_ofElement]
    exact ranges_ordered s.catalog hlen (fun a ha => hplaced.child ha) hplaced.children.pairwise
  obtain ⟨name, hname, htag⟩ := hplaced.covers.isStart.startsTag
  rw [hplaced.selection_eq, ← hname] at hfar hlo hhi ⊢
  rw [hover_name htag hdocument hlen hlo hhi hfar, Symbol.detail_ofElement, Ne,
    elementRemark_eq_unknown_iff, Symbol.name_ofElement, ← hname]
  cases s.catalog.element? name.bytes with
  | none => exact ⟨iff_of_true rfl rfl, fun hknown => absurd rfl hknown⟩
  | some known =>
    refine ⟨iff_of_false (by simp) (by simp), fun _ => ⟨_, rfl, ?_⟩⟩
    exact isPrefix_contents_tagHover _ _ _ _

theorem symbols_agree_svg :
    let svg : Grammar.Element := ⟨utf8 "svg", [], false, false, false, none, none⟩
    let text := utf8 "é<svg><g/></svg>"
    let s : Session := ⟨⟨[svg], []⟩, .unlimited, ⟨[⟨utf8 "u", 1, text⟩]⟩, true, none⟩
    text.length < UInt32.size ∧ ∃ symbol, s.documentSymbol (utf8 "u") = .symbols [symbol] ∧
      symbol.selection = ⟨⟨0, 2⟩, ⟨0, 5⟩⟩ ∧
      ∃ contents, s.hover (utf8 "u") ⟨0, 5⟩ = .hover ⟨contents, ⟨⟨0, 2⟩, ⟨0, 5⟩⟩⟩ ∧
        utf8 "\x60<svg>\x60" <+: contents := by
  intro svg text s
  have hanswer : s.documentSymbol (utf8 "u") = .symbols
      [.mk (utf8 "svg") [] ⟨⟨0, 1⟩, ⟨0, 16⟩⟩ ⟨⟨0, 2⟩, ⟨0, 5⟩⟩
        [.mk (utf8 "g") (utf8 "unknown element") ⟨⟨0, 6⟩, ⟨0, 10⟩⟩ ⟨⟨0, 7⟩, ⟨0, 8⟩⟩ []]] := by
    subst s text svg
    cbv
  have hdocument : s.documents.get? (utf8 "u") = some ⟨utf8 "u", 1, text⟩ := rfl
  have hcolumn : (ofClient text ⟨0, 5⟩).column = 6 := by
    subst text
    cbv
  obtain ⟨symbols, hsymbols, -, hall⟩ := symbols_agree rfl hdocument (by decide)
  rw [hanswer] at hsymbols
  cases symbols with
  | nil => simp at hsymbols
  | cons symbol rest =>
    obtain ⟨rfl, rfl⟩ := List.cons.inj (Answer.symbols.inj hsymbols)
    obtain ⟨-, -, -, -, hhover⟩ := hall none _ (.here List.mem_cons_self)
    obtain ⟨-, hshown⟩ := hhover (hcolumn.trans_le (by decide)) ⟨0, 5⟩
      (.inr ⟨rfl, by decide⟩) (.inr ⟨rfl, by decide⟩)
    obtain ⟨contents, hcontents, hname⟩ := hshown (by decide)
    exact ⟨by decide, _, hanswer, rfl, contents, hcontents, hname⟩

/-- A tag behind 715827883 characters of three bytes each. -/
theorem symbols_disagree_far :
    let svg : Grammar.Element := ⟨utf8 "svg", [], false, false, false, none, none⟩
    let text := (List.replicate 715827883 (utf8 "€")).flatten ++ utf8 "<svg/>"
    let s : Session := ⟨⟨[svg], []⟩, .unlimited, ⟨[⟨utf8 "u", 1, text⟩]⟩, true, none⟩
    text.length < UInt32.size ∧ ∃ symbol p, s.documentSymbol (utf8 "u") = .symbols [symbol] ∧
      symbol.selection.start ≤ p ∧ p ≤ symbol.selection.stop ∧
      symbol.detail ≠ utf8 "unknown element" ∧ s.hover (utf8 "u") p = .nothing := by
  intro svg text s
  set front := (List.replicate 715827883 (utf8 "€")).flatten with hfront
  have hbytes (b : UInt8) (hb : b ∈ front) : b ∈ utf8 "€" := by
    obtain ⟨l, hl, hb⟩ := List.mem_flatten.mp hb
    rwa [List.eq_of_mem_replicate hl] at hb
  have hsize : front.length = 2147483649 := by
    have hone : (utf8 "€").length = 3 := by decide
    rw [hfront, List.length_flatten, List.map_replicate, hone, List.sum_replicate_nat]
  have hlen : text.length < UInt32.size := by
    rw [List.length_append, hsize]
    decide
  have hfar : farColumn ≤ front.length := by
    rw [hsize]
    decide
  have htext : text = front ++
      (Node.empty ⟨utf8 "svg", rfl, by decide⟩ ⟨[], ⟨[], List.forall_mem_nil _⟩⟩).render := rfl
  have hdocument : s.documents.get? (utf8 "u") = some ⟨utf8 "u", 1, text⟩ := rfl
  obtain ⟨symbol, hanswer, -, hdetail, hle, hnothing⟩ :=
    hover_far_tag rfl hdocument hlen (fun h => absurd (hbytes _ h) (by decide))
      (fun h => absurd (hbytes _ h) (by decide)) htext hfar
  refine ⟨hlen, symbol, symbol.selection.start, hanswer, .inr ⟨rfl, UInt32.le_refl _⟩, hle, ?_, ?_⟩
  · rw [hdetail]
    decide
  · exact hnothing _ (.inr ⟨rfl, UInt32.le_refl _⟩) hle

end SvgAssist.Server
