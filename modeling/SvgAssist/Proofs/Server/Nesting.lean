import SvgAssist.Proofs.Completion.TagOpen
import SvgAssist.Server.Session
import Mathlib

/-!
# Nesting as a client sees it

The symbols of a document are the tree of its outline, and what completion offers behind the `<` of
an element is drawn for the parent that this tree shows (`parents_agree`).
-/

namespace SvgAssist.Server

open Completion Grammar Markup Text

abbrev Symbol.Shows (symbols : List Symbol) (parent : Option Text) (symbol : Symbol) : Prop :=
  Nests Symbol.name Symbol.children symbol parent none symbols

namespace Symbol

-- The mutual recursion is a map over the elements.
theorem ofElements_eq_map (c : Catalog) (places : Places) (es : List Markup.Element) :
    ofElements c places es = es.map (ofElement c places) := by
  induction es with
  | nil => rw [ofElements, List.map_nil]
  | cons e es ih => rw [ofElements, List.map_cons, ih]

theorem name_ofElement (c : Catalog) (places : Places) (e : Markup.Element) :
    (ofElement c places e).name = e.name := by
  cases e
  rw [ofElement]
  rfl

theorem detail_ofElement (c : Catalog) (places : Places) (e : Markup.Element) :
    (ofElement c places e).detail = elementRemark c e.name := by
  cases e
  rw [ofElement]
  rfl

theorem range_ofElement (c : Catalog) (places : Places) (e : Markup.Element) :
    (ofElement c places e).range = places.span e.span.start e.span.stop := by
  cases e
  rw [ofElement]
  rfl

theorem selection_ofElement (c : Catalog) (places : Places) (e : Markup.Element) :
    (ofElement c places e).selection =
      places.span (e.span.start + 1) (e.span.start + 1 + e.name.length) := by
  cases e
  rw [ofElement]
  rfl

theorem children_ofElement (c : Catalog) (places : Places) (e : Markup.Element) :
    (ofElement c places e).children = e.children.map (ofElement c places) := by
  cases e
  rw [ofElement, ← ofElements_eq_map]
  rfl

-- The symbols of an outline have its nesting.
theorem shows_ofElements_iff (c : Catalog) (places : Places) (o : Outline) (parent : Option Text)
    (symbol : Symbol) :
    Shows (ofElements c places o.roots) parent symbol ↔
      ∃ e, o.Shows parent e ∧ ofElement c places e = symbol := by
  rw [ofElements_eq_map]
  exact nests_map_iff (name_ofElement c places) (children_ofElement c places)

end Symbol

-- With an element in it, a document has the symbols of its outline.
theorem documentSymbol_of_parse {s : Session} {uri : Text} {d : Document} {o : Outline}
    (hbudget : s.budget = .unlimited) (hdocument : s.documents.get? uri = some d)
    (ho : Outline.parse .unlimited d.text = .ok o) (hroots : o.roots ≠ []) :
    s.documentSymbol uri = .symbols (Symbol.ofElements s.catalog (.ofText d.text) o.roots) := by
  simp only [Session.documentSymbol, hdocument, hbudget, ho]

/-- Every element of the outline has its parent there where a scan that is cut off anywhere from its
`<` to the end of its name finds the innermost open element. The symbols of the document show that
parent, and completion behind the `<` offers what may be nested in it. -/
theorem parents_agree (text : Text) :
    ∃ o, Outline.parse .unlimited text = .ok o ∧ ∀ parent e, o.Shows parent e →
      (∀ c, e.span.start ≤ c → c ≤ e.span.start + 1 + e.name.length →
        parentElement .unlimited (text.take c) = .ok parent) ∧
      (∀ catalog, complete catalog .unlimited text (positionAt text (e.span.start + 1 : Nat)) =
        childCandidates catalog (text.take (e.span.start + 1))
          (positionAt text (e.span.start + 1 : Nat)) parent) ∧
      ∀ (s : Session) (uri : Text) (d : Document), s.budget = .unlimited →
        s.documents.get? uri = some d → d.text = text →
        ∃ symbols, s.documentSymbol uri = .symbols symbols ∧ ∀ outer symbol,
          Symbol.Shows symbols outer symbol ↔
            ∃ a, o.Shows outer a ∧ Symbol.ofElement s.catalog (.ofText text) a = symbol := by
  refine ⟨_, parse_unlimited text, fun parent e he => ?_⟩
  have hbegins := begins_of_nests (parse_unlimited text) he
  refine ⟨fun c hlo hhi => parentElement_take hbegins hlo hhi,
    fun catalog => complete_at_start_tag catalog hbegins, ?_⟩
  rintro s uri d hbudget hdocument rfl
  have hroots :
      (((eventsFrom 0 d.text).foldl Draft.step .empty).finish d.text.length).roots ≠ [] := by
    intro hnil
    unfold Outline.Shows at he
    rw [hnil] at he
    cases he with
    | here hmem => simp at hmem
    | inside hmem => simp at hmem
  exact ⟨_, documentSymbol_of_parse hbudget hdocument (parse_unlimited d.text) hroots,
    Symbol.shows_ofElements_iff s.catalog (.ofText d.text) _⟩

theorem parents_agree_nested :
    let text := utf8 "<a><b/></a>"
    let inner := Markup.Element.mk (utf8 "b") ⟨3, 7⟩ []
    let s : Session := ⟨⟨[], []⟩, .unlimited, ⟨[⟨utf8 "u", 1, text⟩]⟩, true, none⟩
    ∃ o, Outline.parse .unlimited text = .ok o ∧ o.Shows (some (utf8 "a")) inner ∧
      parentElement .unlimited (text.take 5) = .ok (some (utf8 "a")) ∧
      complete s.catalog .unlimited text (positionAt text (4 : Nat)) =
        elementCandidates s.catalog (utf8 "a") ∧
      ∃ symbols, s.documentSymbol (utf8 "u") = .symbols symbols ∧
        Symbol.Shows symbols (some (utf8 "a"))
          (Symbol.ofElement s.catalog (.ofText text) inner) := by
  intro text inner s
  have hparse : Outline.parse .unlimited text =
      .ok ⟨[.mk (utf8 "a") ⟨0, 11⟩ [inner]], []⟩ := by cbv
  obtain ⟨o, ho, hall⟩ := parents_agree text
  obtain rfl := Except.ok.inj (hparse.symm.trans ho)
  have hinner : Outline.Shows ⟨[.mk (utf8 "a") ⟨0, 11⟩ [inner]], []⟩ (some (utf8 "a")) inner :=
    .inside List.mem_cons_self (.here List.mem_cons_self)
  obtain ⟨hcuts, hcomplete, hsymbols⟩ := hall _ _ hinner
  obtain ⟨symbols, hanswer, hshows⟩ := hsymbols s (utf8 "u") ⟨utf8 "u", 1, text⟩ rfl rfl rfl
  exact ⟨_, ho, hinner, hcuts 5 (by decide) (by decide), hcomplete s.catalog, symbols, hanswer,
    (hshows _ _).mpr ⟨inner, hinner, rfl⟩⟩

end SvgAssist.Server
