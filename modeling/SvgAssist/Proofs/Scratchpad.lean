import Mathlib
import SvgAssist.Proofs.Completion.Candidates
import SvgAssist.Proofs.Text.Encoding
import SvgAssist.Scratchpad

/-!
# Completing a name while it is typed

The end of a line is the name that is typed there and a front that the candidates depend on
(`Typing.continuations`), so one more character of the name changes no candidate. What a candidate
types begins with its label, and no character of a name follows the label (`exists_insertion`). So a
character that is typed keeps the continuations that begin with it (`continuations_narrow`).
-/

namespace SvgAssist.Scratchpad

open Completion

/-! ## What candidates type -/

def labelEnds : List UInt8 := [Byte.space, Byte.equals, Byte.greater]

-- What follows the name in the text of an element is a blank, a `>` or nothing.
theorem exists_elementInsertion (name : Text) (e : Option Grammar.Element) :
    ∃ more, (elementInsertion name e).1 = name ++ more ∧ ∀ b ∈ more.head?, b ∈ labelEnds := by
  unfold elementInsertion
  split
  · exact ⟨utf8 " /", rfl, by rintro b ⟨⟩; decide⟩
  split
  · exact ⟨utf8 "></" ++ name ++ utf8 ">", by simp only [List.append_assoc],
      by rintro b ⟨⟩; decide⟩
  · exact ⟨utf8 ">\n\t\n</" ++ name, by simp only [List.append_assoc], by rintro b ⟨⟩; decide⟩

variable {catalog : Grammar.Catalog} {budget : Markup.Budget} {text : Text} {pos : Position}
  {c : Candidate}

-- All candidates type their label first.
theorem exists_text (h : c ∈ complete catalog budget text pos) :
    ∃ more, c.text = c.label ++ more ∧ ∀ b ∈ more.head?, b ∈ labelEnds := by
  unfold complete at h
  split at h
  · obtain ⟨-, rfl⟩ | ⟨parent, hc⟩ := mem_tagCandidates h
    · exact ⟨rootSkeleton.drop 3, rfl, by rintro b ⟨⟩; decide⟩
    · obtain ⟨name, e, rfl⟩ := exists_of_mem_elementCandidates hc
      exact exists_elementInsertion name e
  · obtain ⟨name, a, rfl⟩ := exists_of_mem_nameCandidates h
    exact ⟨utf8 "=\"\"", rfl, by rintro b ⟨⟩; decide⟩
  · obtain ⟨v, rfl⟩ := exists_of_mem_enumCandidates h
    exact ⟨[], (List.append_nil v.name).symm, by simp⟩
  · simp at h

/-- What is typed for a candidate is its label, and behind it nothing that goes on with a name. -/
theorem exists_insertion (h : c ∈ complete catalog budget text pos) :
    ∃ more, insertion c = c.label ++ more ∧ ∀ b ∈ more.head?, b ∈ labelEnds := by
  unfold insertion
  split
  · exact ⟨[], (List.append_nil c.label).symm, by simp⟩
  · exact exists_text h

/-! ## One more character -/

def remaining (name : Text) (c : Candidate) : Text := Text.repaired ((insertion c).drop name.length)

theorem singleton_isPrefixOf_iff {b : UInt8} {t : Text} : [b].isPrefixOf t ↔ t.head? = some b := by
  rw [List.isPrefixOf_iff_prefix, List.head?_eq_some_iff]
  exact exists_congr fun rest => eq_comm

variable {name : Text} {b : UInt8}

-- The label goes on with `b` just when what is typed for it does, since `b` cannot follow the
-- label.
theorem isPrefixOf_concat (h : c ∈ complete catalog budget text pos) (hb : b < 0x80)
    (hend : b ∉ labelEnds) :
    (name ++ [b]).isPrefixOf c.label =
      (name.isPrefixOf c.label && [b].isPrefixOf (remaining name c)) := by
  rw [Bool.eq_iff_iff, Bool.and_eq_true]
  by_cases hname : name.isPrefixOf c.label
  · obtain ⟨rest, hrest⟩ := List.isPrefixOf_iff_prefix.mp hname
    obtain ⟨more, hmore, hhead⟩ := exists_insertion h
    have hleft : (insertion c).drop name.length = rest ++ more := by
      rw [hmore, ← hrest, List.append_assoc, List.drop_left]
    have hgo : (rest ++ more).head? = some b ↔ rest.head? = some b := by
      cases rest with
      | nil => exact iff_of_false (fun hb => hend (hhead b hb)) (by simp)
      | cons d rest => rfl
    rw [and_iff_right hname, singleton_isPrefixOf_iff, remaining, Text.head?_repaired_eq_iff hb,
      hleft, hgo, ← singleton_isPrefixOf_iff, ← hrest, List.isPrefixOf_iff_prefix,
      List.prefix_append_right_inj, List.isPrefixOf_iff_prefix]
  · refine iff_of_false (fun hlong => hname ?_) (fun hboth => hname hboth.1)
    rw [List.isPrefixOf_iff_prefix] at hlong ⊢
    exact (List.prefix_append name [b]).trans hlong

-- One more byte of the name takes it from the front of what remains.
theorem remaining_concat (hb : b < 0x80) (h : [b].isPrefixOf (remaining name c)) :
    remaining (name ++ [b]) c = (remaining name c).drop 1 := by
  rw [singleton_isPrefixOf_iff, remaining, Text.head?_repaired_eq_iff hb,
    List.head?_eq_some_iff] at h
  obtain ⟨rest, hrest⟩ := h
  rw [remaining, remaining, List.length_append, ← List.drop_drop, hrest, List.length_singleton,
    List.drop_succ_cons, List.drop_zero, Text.repaired_cons_ascii hb, List.drop_succ_cons,
    List.drop_zero]

/-- What is left to type behind `name` for those candidates whose label begins with it. -/
def remainders (name : Text) (candidates : List Candidate) : List Text :=
  (candidates.filter fun c => name.isPrefixOf c.label).map (remaining name)

-- One more byte leaves those candidates that go on with it.
theorem remainders_concat (hb : b < 0x80) (hend : b ∉ labelEnds) :
    remainders (name ++ [b]) (complete catalog budget text pos) =
      ((remainders name (complete catalog budget text pos)).filter ([b].isPrefixOf ·)).map
        (·.drop 1) := by
  rw [remainders, remainders, List.filter_map, List.map_map, List.filter_filter]
  have hfilter : (complete catalog budget text pos).filter
        (fun c => (name ++ [b]).isPrefixOf c.label) =
      (complete catalog budget text pos).filter
        (fun c => (([b].isPrefixOf ·) ∘ remaining name) c && name.isPrefixOf c.label) :=
    List.filter_congr fun c hc => (isPrefixOf_concat hc hb hend).trans (Bool.and_comm _ _)
  rw [hfilter]
  refine List.map_congr_left fun c hc => remaining_concat hb ?_
  exact (Bool.and_eq_true_iff.mp (List.mem_filter.mp hc).2).1

/-! ## Lines -/

theorem bounds_of_isNameChar {x : Char} (hx : isNameChar x) :
    x.toNat < 0x80 ∧ x.toNat ≠ 0x20 ∧ x.toNat ≠ 0x3d ∧ x.toNat ≠ 0x3e := by
  simp only [isNameChar, Char.isAlphanum, Char.isAlpha, Char.isUpper, Char.isLower, Char.isDigit,
    Bool.or_eq_true, Bool.and_eq_true, decide_eq_true_eq, UInt32.le_iff_toNat_le, ge_iff_le] at hx
  change ((((((65 ≤ x.toNat ∧ x.toNat ≤ 90) ∨ (97 ≤ x.toNat ∧ x.toNat ≤ 122)) ∨
    (48 ≤ x.toNat ∧ x.toNat ≤ 57)) ∨ x = '-') ∨ x = '_') ∨ x = ':') ∨ x = '.' at hx
  rcases hx with ((((hletter | hdigit) | rfl) | rfl) | rfl) | rfl
  · omega
  · omega
  all_goals decide

/-- A character of a name is an ASCII byte that does not follow a label. -/
theorem exists_ofChar {x : Char} (hx : isNameChar x) :
    ∃ b, Text.ofChar x = [b] ∧ b < 0x80 ∧ b ∉ labelEnds := by
  obtain ⟨hascii, hspace, hequals, hgreater⟩ := bounds_of_isNameChar hx
  have hbyte : x.toNat.toUInt8.toNat = x.toNat := Text.toNat_toUInt8 (by omega)
  refine ⟨x.toNat.toUInt8, if_pos hascii, ?_, ?_⟩
  · rw [UInt8.lt_iff_toNat_lt, hbyte]
    exact hascii
  · simp only [labelEnds, List.mem_cons, List.not_mem_nil, or_false, ← UInt8.toNat_inj, hbyte]
    exact fun h => by rcases h with h | h | h <;> contradiction

/-- A line is a front and, behind it, all of the name that is typed at its end. -/
structure Typing (line front typed : List Char) : Prop where
  parts : line = front ++ typed
  inside : ∀ c ∈ typed, isNameChar c
  ahead : ∀ c ∈ front.getLast?, ¬isNameChar c

-- A line is split in front of the last character that cannot stand in a name.
theorem exists_typing (line : List Char) : ∃ front typed, Typing line front typed := by
  refine ⟨line.rdropWhile isNameChar, line.rtakeWhile isNameChar,
    List.rdropWhile_append_rtakeWhile.symm, fun c hc => List.mem_rtakeWhile_imp hc,
    fun c hc => ?_⟩
  obtain ⟨hne, rfl⟩ := List.mem_getLast?_eq_getLast hc
  exact List.rdropWhile_last_not _ _ hne

namespace Typing

variable {line front typed : List Char} {x : Char} {s : Scratchpad}

theorem concat (h : Typing line front typed) (hx : isNameChar x) :
    Typing (line ++ [x]) front (typed ++ [x]) where
  parts := by rw [h.parts, List.append_assoc]
  inside := by simpa [or_imp, forall_and] using ⟨h.inside, hx⟩
  ahead := h.ahead

/-- The candidates are those behind the front. -/
theorem continuations (h : Typing line front typed) :
    s.continuations line =
      if s.completeAfter (Text.ofChars front) = [] then (none, 0)
      else (some (remainders (Text.ofChars typed) (s.completeAfter (Text.ofChars front))),
        typed.length) := by
  have hfront : front.reverse.takeWhile isNameChar = [] := by
    rw [← List.reverse_eq_nil_iff]
    exact List.rtakeWhile_eq_nil_iff.mpr fun hne => h.ahead _ (List.getLast?_eq_some_getLast hne)
  have htyped : (line.reverse.takeWhile isNameChar).reverse = typed := by
    rw [h.parts, List.reverse_append, List.takeWhile_append_of_pos (by simpa using h.inside),
      hfront, List.append_nil, List.reverse_reverse]
  have hrest : line.take (line.length - typed.length) = front := by
    rw [h.parts, List.length_append, Nat.add_sub_cancel, List.take_left]
  unfold Scratchpad.continuations
  simp only [htyped, hrest]
  cases s.completeAfter (Text.ofChars front) with
  | nil => rfl
  | cons c candidates => rfl

end Typing

/-- A character of a name that is typed at the end of a line keeps the continuations that begin
with it, in their order, and is taken off them. What is cut off a candidate is there, and the
continuations go on from all of the name in front of the cursor. -/
theorem continuations_narrow (s : Scratchpad) (line : List Char) {x : Char} (hx : isNameChar x) :
    (s.continuations (line ++ [x])).1 =
        (s.continuations line).1.map (fun rests =>
          (rests.filter ((Text.ofChar x).isPrefixOf ·)).map (·.drop (Text.ofChar x).length)) ∧
      ∃ front typed, Typing line front typed ∧
        (∀ c ∈ s.completeAfter (Text.ofChars front), (Text.ofChars typed).isPrefixOf c.label →
          (Text.ofChars typed).length ≤ (insertion c).length) ∧
        (s.completeAfter (Text.ofChars front) ≠ [] →
          (s.continuations line).2 = typed.length) := by
  obtain ⟨front, typed, h⟩ := exists_typing line
  refine ⟨?_, front, typed, h, fun c hc hlabel => ?_, fun hne => ?_⟩
  · obtain ⟨b, hbytes, hb, hend⟩ := exists_ofChar hx
    have hname : Text.ofChars (typed ++ [x]) = Text.ofChars typed ++ [b] := by
      rw [Text.ofChars, List.flatMap_append, List.flatMap_singleton, hbytes, Text.ofChars]
    rw [(h.concat hx).continuations, h.continuations, hname, hbytes]
    split
    · rfl
    · exact congrArg some (remainders_concat hb hend)
  · obtain ⟨more, hmore, -⟩ := exists_insertion hc
    have hprefix := (List.isPrefixOf_iff_prefix.mp hlabel).trans (List.prefix_append c.label more)
    rw [hmore]
    exact hprefix.length_le
  · rw [h.continuations, if_neg hne]

theorem continuations_narrow_rect :
    let gradient : Grammar.Element := ⟨utf8 "radialGradient", [], false, false, false, none, none⟩
    let rect : Grammar.Element := ⟨utf8 "rect", [], false, true, false, none, none⟩
    let s : Scratchpad := ⟨⟨[gradient, rect], []⟩, .unlimited, [utf8 "<svg>"]⟩
    isNameChar 'e' ∧
      s.continuations ['<', 'r'] = (some [utf8 "adialGradient", utf8 "ect /"], 1) ∧
      (s.continuations ['<', 'r', 'e']).1 = some [utf8 "ct /"] := by
  intro gradient rect s
  have hr : s.continuations ['<', 'r'] = (some [utf8 "adialGradient", utf8 "ect /"], 1) := by cbv
  obtain ⟨hnarrow, -⟩ := continuations_narrow s ['<', 'r'] (x := 'e') (by decide)
  rw [hr] at hnarrow
  exact ⟨by decide, hr, hnarrow.trans (by decide)⟩

end SvgAssist.Scratchpad
