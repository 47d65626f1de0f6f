import SvgAssist.Proofs.Completion.Candidates
import SvgAssist.Proofs.Completion.TagOpen
import SvgAssist.Proofs.Markup.Laminar
import SvgAssist.Proofs.Markup.Stop
import SvgAssist.Proofs.Markup.Tagless
import SvgAssist.Proofs.Text.Positions
import Mathlib

/-!
# Where the root element is offered

The root element is the only candidate that is put in as an edit. It is offered where no tag stands
in front of the cursor, and there the outline has nothing either (`root_offered_only_without_tags`).
-/

namespace SvgAssist.Completion

open Grammar Markup Text

variable {catalog : Catalog} {budget : Budget} {text : Text} {pos : Position} {c : Candidate}

-- A candidate with an edit is the root element, and no tag stands in front of the cursor.
theorem eq_rootCandidate_of_mem (h : c ∈ complete catalog budget text pos) (hedit : c.edit ≠ none) :
    c = rootCandidate catalog pos ∧ Tagless (before text pos) := by
  unfold complete at h
  split at h
  · rcases mem_tagCandidates h with ⟨htag, rfl⟩ | ⟨_, h⟩
    · exact ⟨rfl, precedingTag_eq_none_iff.mp htag⟩
    · obtain ⟨_, _, rfl⟩ := exists_of_mem_elementCandidates h
      exact absurd rfl hedit
  · obtain ⟨_, _, rfl⟩ := exists_of_mem_nameCandidates h
    exact absurd rfl hedit
  · obtain ⟨_, rfl⟩ := exists_of_mem_enumCandidates h
    exact absurd rfl hedit
  · simp at h

-- Behind a `<` it is offered as long as no tag stands in front of the cursor.
theorem rootCandidate_mem_complete {i : Nat} (hless : text[i]? = some Byte.less)
    (htagless : Tagless (text.take (i + 1))) :
    rootCandidate catalog (positionAt text (i + 1 : Nat)) ∈
      complete catalog budget text (positionAt text (i + 1 : Nat)) := by
  have htag := precedingTag_eq_none_iff.mpr htagless
  rw [complete, classifyAt_behind_less hless]
  simp only [tagCandidates, before_behind_less hless, htag]
  exact List.mem_cons_self

-- A tag of which at least two bytes stand in front of the cursor is found there.
theorem edit_eq_none_of_event (hc : c ∈ complete catalog budget text pos) {e : Event}
    (he : e ∈ eventsFrom 0 text) (hstart : e.start < (before text pos).length - 1) :
    c.edit = none := by
  by_contra hedit
  have htagless := (eq_rootCandidate_of_mem hc hedit).2
  rw [before_eq_take] at htagless hstart
  rw [List.length_take] at hstart
  exact not_tagless_take he (by omega) htagless

/-- If the root element is offered, the scan of the text before the cursor comes to its end without
reporting anything, and no element is open there. Where an element or a comment of the outline
begins in front of the `<` at the cursor, it is not offered. -/
theorem root_offered_only_without_tags (catalog : Catalog) (budget : Budget) (text : Text)
    (pos : Position) :
    ((∃ c ∈ complete catalog budget text pos, c.edit ≠ none) →
      scan .unlimited (before text pos) = .ok [] ∧ stopFrom 0 (before text pos) = none ∧
        parentElement .unlimited (before text pos) = .ok none) ∧
    ∀ outline, Outline.parse .unlimited text = .ok outline →
      ((∃ parent e, outline.Shows parent e ∧ e.span.start < (before text pos).length - 1) ∨
        ∃ comment ∈ outline.comments, comment.start < (before text pos).length - 1) →
      ∀ c ∈ complete catalog budget text pos, c.edit = none := by
  refine ⟨?_, fun outline houtline hbegins c hc => ?_⟩
  · rintro ⟨c, hc, hedit⟩
    obtain ⟨hthrough, hevents⟩ := (eq_rootCandidate_of_mem hc hedit).2.scan
    refine ⟨?_, stopFrom_eq_none_iff.mpr hthrough, ?_⟩
    · rw [scan_unlimited, hevents]
    · rw [parentElement_unlimited, hevents]
      rfl
  · rcases hbegins with ⟨parent, e, he, hstart⟩ | ⟨comment, hcomment, hstart⟩
    · obtain ⟨a, ha, -, -, hat⟩ := ((laminar_of_parse houtline).of_nests he).1.isStart
      exact edit_eq_none_of_event hc ha (by rwa [hat])
    · rw [comments_of_parse houtline] at hcomment
      obtain ⟨a, ha, rfl⟩ := List.mem_map.mp hcomment
      exact edit_eq_none_of_event hc (List.mem_of_mem_filter ha) hstart

theorem root_offered_only_without_tags_comment :
    let catalog : Catalog := ⟨[], []⟩
    let bare := utf8 "1 < 2 <"
    let commented := utf8 "<!-- --><"
    (∃ c ∈ complete catalog .unlimited bare (positionAt bare (7 : Nat)), c.edit ≠ none) ∧
      scan .unlimited (before bare (positionAt bare (7 : Nat))) = .ok [] ∧
      parentElement .unlimited (before bare (positionAt bare (7 : Nat))) = .ok none ∧
      Outline.parse .unlimited commented = .ok ⟨[], [⟨0, 8⟩]⟩ ∧
      ∀ c ∈ complete catalog .unlimited commented (positionAt commented (9 : Nat)),
        c.edit = none := by
  intro catalog bare commented
  have hless : bare[6]? = some Byte.less := by decide
  have htagless : Tagless (bare.take 7) := precedingTag_eq_none_iff.mp (by decide)
  have hroot : ∃ c ∈ complete catalog .unlimited bare (positionAt bare (6 + 1 : Nat)),
      c.edit ≠ none :=
    ⟨_, rootCandidate_mem_complete hless htagless, Option.some_ne_none _⟩
  obtain ⟨hscan, -, hparent⟩ := (root_offered_only_without_tags _ _ _ _).1 hroot
  have houtline : Outline.parse .unlimited commented = .ok ⟨[], [⟨0, 8⟩]⟩ := by cbv
  have hbehind : commented[8]? = some Byte.less := by decide
  have hbefore : 0 < (before commented (positionAt commented (8 + 1 : Nat))).length - 1 := by
    rw [before_behind_less hbehind]
    decide
  have hnone := (root_offered_only_without_tags catalog .unlimited commented _).2 _ houtline
    (.inr ⟨_, List.mem_singleton_self _, hbefore⟩)
  exact ⟨hroot, hscan, hparent, houtline, hnone⟩

end SvgAssist.Completion
