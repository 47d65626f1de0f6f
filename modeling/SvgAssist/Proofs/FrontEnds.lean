import SvgAssist.Command.Cursor
import SvgAssist.Scratchpad
import SvgAssist.Server.Session
import SvgAssist.Proofs.Completion.RootElement
import SvgAssist.Proofs.Server.Address
import SvgAssist.Proofs.Text.Search
import Mathlib

/-!
# The front ends agree

A cursor is named by a mark in the document, by a line and a column on the command line, by a client
position, or by the end of what was typed. Wherever a cursor can stand, all of these lead to the
candidates at its position (`front_ends_agree`), as long as the line and the column go into the
words of a client. Behind 2^32 units on its line a cursor has the client position of another one
(`front_ends_disagree_far`).
-/

namespace SvgAssist

open Command Completion Grammar Markup Server Text

/-! ## The command line -/

variable {text : Text} {o : Nat}

-- A mark that was put in at an offset, and begins nowhere before it, is found there and taken out
-- again.
theorem locate_mark {mark : Text} {line : Int} (hmark : mark ≠ []) (hline : line ≤ 0)
    (ho : o ≤ text.length)
    (hfirst : ∀ j < o, ¬ mark <+: (text.take o ++ (mark ++ text.drop o)).drop j) (column : Int) :
    locate (text.take o ++ (mark ++ text.drop o)) ⟨line, column, mark⟩ =
      .ok (text, positionAt text o) := by
  have hlen : (text.take o).length = o := List.length_take_of_le ho
  have hindex : indexOf mark (text.take o ++ (mark ++ text.drop o)) = some o := by
    refine indexOf_eq_some_iff.mpr ⟨?_, hfirst⟩
    rw [List.drop_left' hlen]
    exact List.prefix_append _ _
  -- Without the mark, what stands on its two sides is the text again.
  have hbefore : (text.take o ++ (mark ++ text.drop o)).take o = text.take o :=
    List.take_left' hlen
  have hbehind : (text.take o ++ (mark ++ text.drop o)).drop (o + mark.length) = text.drop o := by
    rw [← List.drop_drop, List.drop_left' hlen, List.drop_left]
  have hmarked : ¬ 0 < line := by omega
  simp only [locate, hmark, hmarked, if_false, hindex, hbefore, hbehind, List.take_append_drop]

-- The line and the column of an offset, counted from one, lead to its position.
theorem locate_line_column (text : Text) (o : Nat) (mark : Text) :
    locate text ⟨(positionAt text o).line + 1, (positionAt text o).column + 1, mark⟩ =
      .ok (text, positionAt text o) := by
  have hcount : (text.take o).count Byte.newline < lineCount text := by
    rw [lineCount_eq]
    exact Nat.lt_succ_of_le ((List.take_sublist o text).count_le _)
  rw [positionAt_natCast]
  simp only [locate, Int.add_sub_cancel]
  rw [if_pos (by omega), if_neg (by omega), if_neg (by omega)]

/-! ## The server -/

-- The server answers at the offset that the client means.
theorem serve_completion {s : Session} {uri : Text} {d : Server.Document} {p : ClientPosition}
    (hdocument : s.documents.get? uri = some d) (hcaret : Caret d.text o)
    (hp : Addresses p d.text o) :
    s.serve (.completion uri p) =
      (s, if complete s.catalog s.budget d.text (positionAt d.text o) = [] then .nothing
        else .items ((complete s.catalog s.budget d.text (positionAt d.text o)).map
          (Item.ofCandidate d.text))) := by
  simp only [Session.serve, Session.completion, hdocument, hp.ofClient_eq hcaret]
  cases complete s.catalog s.budget d.text (positionAt d.text o) <;> rfl

/-! ## The scratchpad -/

-- The last of the typed lines is the unfinished one, and joined with the others it is the text.
theorem completeAtEnd_lines (c : Catalog) (budget : Budget) (text : Text) :
    (Scratchpad.mk c budget (Text.lines text)).completeAtEnd =
      complete c budget text (positionAt text text.length) := by
  have hlast := List.getLast?_eq_some_getLast (lines_ne_nil text)
  simp only [Scratchpad.completeAtEnd, hlast, Scratchpad.completeAfter, Scratchpad.append,
    Scratchpad.text, List.dropLast_append_getLast (lines_ne_nil text), intercalate_lines]

/-! ## Beyond the columns of a client -/

-- Behind a byte that is none of the four, nothing is completed, whatever comes next.
theorem classify_other {b : UInt8} (hother : b ∉ utf8 "< \"=") (next : Text) :
    classify [b] next = .none := by
  have hne (c : UInt8) (hc : c ∈ utf8 "< \"=") : [b] ≠ [c] := fun h =>
    hother (List.singleton_inj.mp h ▸ hc)
  have hless : [b] ≠ utf8 "<" := hne _ (by decide)
  have hspace : [b] ≠ utf8 " " := hne _ (by decide)
  have hquote : [b] ≠ utf8 "\"" := hne _ (by decide)
  have hequals : [b] ≠ utf8 "=" := hne _ (by decide)
  simp [classify, hless, hspace, hquote, hequals]

theorem complete_behind_other (catalog : Catalog) (budget : Budget) {b : UInt8}
    (hb : text[o]? = some b) (hplain : Plain [b]) (hother : b ∉ utf8 "< \"=") :
    complete catalog budget text (positionAt text (o + 1 : Nat)) = [] := by
  obtain ⟨hascii, hnewline, hreturn⟩ := hplain b (List.mem_singleton_self b)
  have hchar : charBefore text (positionAt text (o + 1 : Nat)) = [b] :=
    charBefore_of_ascii hb hascii hnewline hreturn
  rw [complete, classifyAt, hchar, classify_other hother]

-- Behind a `<` that no other one precedes, the root element is offered.
theorem root_offered_behind_first (catalog : Catalog) (budget : Budget) {front : Text}
    (h : Byte.less ∉ front) :
    complete catalog budget (front ++ [Byte.less])
      (positionAt (front ++ [Byte.less]) (front.length + 1 : Nat)) ≠ [] := by
  have hless : (front ++ [Byte.less])[front.length]? = some Byte.less :=
    List.getElem?_concat_length
  have htagless : Tagless ((front ++ [Byte.less]).take (front.length + 1)) := by
    rw [take_add_one_of_getElem? hless, List.take_left]
    exact tagless_append_less.mpr (tagless_of_notMem h)
  exact List.ne_nil_of_mem (rootCandidate_mem_complete hless htagless)

-- At the end of a line of 2^32 + 1 bytes, one of these is left of the column.
theorem clientPositionAt_far (hplain : Plain text) (hlen : text.length = UInt32.size + 1)
    (hcaret : Caret text text.length) : clientPositionAt text text.length = ⟨0, 1⟩ := by
  have hplace := place_behind_plain hplain []
  rw [List.append_nil] at hplace
  rw [clientPositionAt_eq_place hcaret, hplace, hlen]
  rfl

-- So the server is asked behind the first byte, and has no answer if that opens nothing.
theorem serve_far {s : Session} {uri : Text} {d : Server.Document} {b : UInt8} {rest : Text}
    (hdocument : s.documents.get? uri = some d) (htext : d.text = b :: rest)
    (hplain : Plain d.text) (hlen : d.text.length = UInt32.size + 1)
    (hcaret : Caret d.text d.text.length) (hother : b ∉ utf8 "< \"=") :
    s.serve (.completion uri (clientPositionAt d.text d.text.length)) = (s, .nothing) := by
  have hfirst : Plain [b] := fun x hx => by
    obtain rfl := List.mem_singleton.mp hx
    exact hplain x (htext ▸ List.mem_cons_self)
  have hb : d.text[0]? = some b := by rw [htext, List.getElem?_cons_zero]
  obtain ⟨hascii, -, hreturn⟩ := hfirst b (List.mem_singleton_self b)
  have hbehind : Caret d.text (0 + 1) := .behind_ascii hb hascii hreturn
  have haddresses : Addresses ⟨0, 1⟩ d.text (0 + 1) := by
    have hfits : Fits d.text 1 :=
      .of_take ((List.length_take_le 1 d.text).trans_lt (by decide))
    have hplace := place_behind_plain hfirst rest
    rw [List.singleton_append, ← htext] at hplace
    exact hplace ▸ hfits.addresses
  rw [clientPositionAt_far hplain hlen hcaret, serve_completion hdocument hbehind haddresses,
    complete_behind_other s.catalog s.budget hb hfirst hother, if_pos rfl]

/-! ## All of them -/

/-- Wherever a cursor can stand, the candidates there are found from a mark, from a line and a
column, from the client position of the cursor, and at the end also from the lines that were typed.
The server answers with their items, and with nothing only when there are none, as long as the line
and the column of the cursor fit into 32 bits. Its position of the cursor is then the only one that
means it. -/
theorem front_ends_agree (catalog : Catalog) (text : Text) {o : Nat} (hcaret : Caret text o) :
    let candidates := complete catalog .unlimited text (positionAt text o)
    (∀ (mark : Text) (line column : Int), mark ≠ [] → line ≤ 0 →
      (∀ j < o, ¬ mark <+: (text.take o ++ (mark ++ text.drop o)).drop j) →
      locate (text.take o ++ (mark ++ text.drop o)) ⟨line, column, mark⟩ =
        .ok (text, positionAt text o)) ∧
    (∀ mark, locate text ⟨(positionAt text o).line + 1, (positionAt text o).column + 1, mark⟩ =
      .ok (text, positionAt text o)) ∧
    (∀ (s : Session) (uri : Text) (d : Server.Document), s.catalog = catalog →
      s.budget = .unlimited → s.documents.get? uri = some d → d.text = text → Fits text o →
      s.serve (.completion uri (clientPositionAt text o)) =
        (s, if candidates = [] then .nothing
          else .items (candidates.map (Item.ofCandidate text)))) ∧
    (text.length < UInt32.size → Fits text o) ∧
    (∀ p, Addresses p text o ↔ Fits text o ∧ p = clientPositionAt text o) ∧
    (o = text.length →
      (Scratchpad.mk catalog .unlimited (Text.lines text)).completeAtEnd = candidates) := by
  intro candidates
  refine ⟨fun mark line column hmark hline hfirst =>
      locate_mark hmark hline hcaret.le_length hfirst column,
    locate_line_column text o, ?_, fun hlen => .of_length hlen o, fun p => ⟨fun hp => ?_, ?_⟩, ?_⟩
  · rintro s uri d rfl hbudget hdocument rfl hfits
    have hanswer := serve_completion hdocument hcaret hfits.addresses
    rwa [hbudget, ← clientPositionAt_eq_place hcaret] at hanswer
  · exact ⟨hp.fits, by rw [hp.eq_place, clientPositionAt_eq_place hcaret]⟩
  · rintro ⟨hfits, rfl⟩
    rw [clientPositionAt_eq_place hcaret]
    exact hfits.addresses
  · rintro rfl
    exact completeAtEnd_lines catalog .unlimited text

/-- Behind a line that ends in a carriage return, after two bytes that are one UTF-16 unit. The mark
ends in what stands before the cursor. -/
theorem front_ends_agree_return :
    let text := utf8 "é\r\né<"
    let s : Session := ⟨⟨[], []⟩, .unlimited, ⟨[⟨utf8 "u", 1, text⟩]⟩, true, none⟩
    let candidates := complete ⟨[], []⟩ .unlimited text (positionAt text (7 : Nat))
    Caret text 7 ∧ candidates = [rootCandidate ⟨[], []⟩ ⟨1, 3⟩] ∧
      locate (utf8 "é\r\né<|<") ⟨0, 0, utf8 "|<"⟩ = .ok (text, positionAt text (7 : Nat)) ∧
      locate text ⟨2, 4, []⟩ = .ok (text, positionAt text (7 : Nat)) ∧
      Fits text 7 ∧ clientPositionAt text 7 = ⟨1, 2⟩ ∧
      s.serve (.completion (utf8 "u") ⟨1, 2⟩) =
        (s, .items (candidates.map (Item.ofCandidate text))) ∧
      (Scratchpad.mk ⟨[], []⟩ .unlimited (Text.lines text)).completeAtEnd = candidates := by
  intro text s candidates
  have hcaret : Caret text 7 := ⟨by decide, ⟨2, by cbv⟩, by decide⟩
  have hcandidates : candidates = [rootCandidate ⟨[], []⟩ ⟨1, 3⟩] := by cbv
  obtain ⟨hmark, hcount, hclient, hshort, haddresses, hend⟩ :=
    front_ends_agree ⟨[], []⟩ text hcaret
  have hfits : Fits text 7 := hshort (by decide)
  have hp : Addresses ⟨1, 2⟩ text 7 := ⟨by decide, by cbv⟩
  have hposition := ((haddresses ⟨1, 2⟩).mp hp).2.symm
  have hne : candidates ≠ [] := by simp [hcandidates]
  have hanswer := hclient s (utf8 "u") ⟨utf8 "u", 1, text⟩ rfl rfl rfl rfl hfits
  rw [if_neg hne, hposition] at hanswer
  exact ⟨hcaret, hcandidates, hmark (utf8 "|<") 0 0 (by decide) (Int.le_refl 0) (by decide),
    hcount [], hfits, hposition, hanswer, hend rfl⟩

/-- Behind 2^32 letters and a `<` the root element is offered, but the column that the client sees
there is one again, and the server is asked behind the first letter. -/
theorem front_ends_disagree_far :
    let text := List.replicate 4294967296 97 ++ utf8 "<"
    let s : Session := ⟨⟨[], []⟩, .unlimited, ⟨[⟨utf8 "u", 1, text⟩]⟩, true, none⟩
    Caret text text.length ∧
      complete ⟨[], []⟩ .unlimited text (positionAt text text.length) ≠ [] ∧
      clientPositionAt text text.length = ⟨0, 1⟩ ∧
      s.serve (.completion (utf8 "u") (clientPositionAt text text.length)) = (s, .nothing) := by
  intro text s
  set letters : Text := List.replicate 4294967296 97
  have hletters (b : UInt8) (hb : b ∈ letters) : b = 97 := List.eq_of_mem_replicate hb
  have hsize : letters.length = UInt32.size := List.length_replicate
  have hlen : text.length = UInt32.size + 1 := by
    rw [List.length_append, hsize]
    rfl
  have hplain : Plain text := by
    refine Plain.append (fun b hb => ?_) (by decide)
    rw [hletters b hb]
    decide
  have hless : text[UInt32.size]? = some Byte.less := hsize ▸ List.getElem?_concat_length
  have hcaret : Caret text text.length := by
    rw [hlen]
    exact .behind_ascii hless (by decide) (by decide)
  have hfree : Byte.less ∉ letters := fun hmem => absurd (hletters _ hmem) (by decide)
  obtain ⟨b, rest, hcons⟩ := List.exists_cons_of_length_pos (l := letters) (by rw [hsize]; decide)
  have hb : b = 97 := hletters b (hcons ▸ List.mem_cons_self)
  have htext : text = b :: (rest ++ utf8 "<") := by
    have happend : text = letters ++ utf8 "<" := rfl
    rw [happend, hcons, List.cons_append]
  refine ⟨hcaret, ?_, clientPositionAt_far hplain hlen hcaret, ?_⟩
  · have hoffered := root_offered_behind_first ⟨[], []⟩ .unlimited hfree
    rwa [hsize, ← hlen] at hoffered
  · exact serve_far (d := ⟨utf8 "u", 1, text⟩) rfl htext hplain hlen hcaret (hb ▸ by decide)

end SvgAssist
