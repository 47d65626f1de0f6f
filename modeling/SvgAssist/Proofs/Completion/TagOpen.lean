import SvgAssist.Completion.Complete
import SvgAssist.Proofs.Markup.Nesting
import SvgAssist.Proofs.Markup.Tagless
import SvgAssist.Proofs.Text.Columns

/-!
# Completion behind a `<`

Behind the `<` of a start tag, completion offers what may be nested in the innermost element that is
open there (`complete_at_start_tag`), or the root element when no tag stands in front.
-/

namespace SvgAssist.Completion

open Grammar Markup Text

/-! ## The tag in front -/

-- Behind the start tag of an element that is still open stands a tag.
theorem precedingTag_ne_none {text : Text} {parent name : Text} {start : Nat}
    (h : Begins (eventsFrom 0 text) (some parent) name start) :
    precedingTag (text.take (start + 1)) ≠ none := by
  obtain ⟨before, e, after, hevents, -, -, rfl, hparent⟩ := h
  -- The parent was opened by a start tag in front of `e`, which ends before `e` begins.
  obtain ⟨a, ha, -⟩ := exists_opened_of_mem_foldl (List.mem_of_mem_head? hparent)
  have hmem : a ∈ eventsFrom 0 text := by
    rw [hevents]
    exact List.mem_append_left _ ha
  have horder := pairwise_eventsFrom 0 text
  rw [hevents] at horder
  have hcross := (List.pairwise_append.mp horder).2.2 a ha e List.mem_cons_self
  have hbounds := bounds_of_mem_eventsFrom hmem
  intro hnone
  exact not_tagless_take hmem (by omega) (precedingTag_eq_none_iff.mp hnone)

/-! ## Candidates -/

theorem getElem?_of_begins {text : Text} {parent : Option Text} {name : Text} {start : Nat}
    (h : Begins (eventsFrom 0 text) parent name start) : text[start]? = some Byte.less := by
  obtain ⟨before, e, after, hevents, hkind, -, rfl, -⟩ := h
  have hmem : e ∈ eventsFrom 0 text := by simp [hevents]
  obtain ⟨i, _, hi, hdrop, tail, rfl, -⟩ := name_of_mem_eventsFrom hmem hkind
  rw [hi, Nat.zero_add, ← List.head?_drop, hdrop, List.head?_cons]

theorem classifyAt_behind_less {text : Text} {start : Nat} (h : text[start]? = some Byte.less) :
    classifyAt text (positionAt text (start + 1 : Nat)) = .tagOpen := by
  have hchar : charBefore text (positionAt text (start + 1 : Nat)) = utf8 "<" :=
    charBefore_of_ascii h (by decide) (by decide) (by decide)
  rw [classifyAt, classify, if_pos hchar]

-- All bytes up to the `<` stand in front of the cursor.
theorem before_behind_less {text : Text} {start : Nat} (h : text[start]? = some Byte.less) :
    before text (positionAt text (start + 1 : Nat)) = text.take (start + 1) := by
  have hlen : start < text.length := (List.getElem?_eq_some_iff.mp h).1
  exact before_positionAt (o := start + 1) hlen (not_afterReturn_of_getElem? h (by decide))

/-- The candidates for a child of `parent`, or for a root. The root element is proposed as long as
no tag stands in `before`. -/
def childCandidates (c : Catalog) (before : Text) (pos : Position) : Option Text → List Candidate
  | some parent => elementCandidates c parent
  | none => if precedingTag before = none then [rootCandidate c pos] else elementCandidates c []

/-- Behind the `<` of a start tag, completion offers the elements that may be nested in the one that
is open there. -/
theorem complete_at_start_tag (c : Catalog) {text : Text} {parent : Option Text} {name : Text}
    {start : Nat} (h : Begins (eventsFrom 0 text) parent name start) :
    complete c .unlimited text (positionAt text (start + 1 : Nat)) =
      childCandidates c (text.take (start + 1)) (positionAt text (start + 1 : Nat)) parent := by
  have hless := getElem?_of_begins h
  have hparent := parentElement_take h (Nat.le_succ start) (Nat.le_add_right (start + 1) _)
  rw [complete, classifyAt_behind_less hless]
  simp only [tagCandidates, before_behind_less hless, hparent]
  cases parent with
  | some outer =>
    have hne := precedingTag_ne_none h
    cases htag : precedingTag (text.take (start + 1)) with
    | none => exact absurd htag hne
    | some _ => rfl
  | none =>
    rw [childCandidates]
    cases precedingTag (text.take (start + 1)) <;> rfl

end SvgAssist.Completion
