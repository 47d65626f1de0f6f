import SvgAssist.Completion.Complete

/-!
# The shapes of candidates

What is proposed in each context is made from a name of the grammar in one way, but for the root
element, which is proposed where no tag stands in front of the cursor.
-/

namespace SvgAssist.Completion

open Grammar Markup Text

variable {catalog : Catalog} {budget : Budget} {text : Text} {pos : Position} {c : Candidate}

-- A candidate behind a `<` is the root element if no tag stands in front, or an element that the
-- grammar lists.
theorem mem_tagCandidates (h : c ∈ tagCandidates catalog budget text pos) :
    precedingTag (before text pos) = none ∧ c = rootCandidate catalog pos ∨
      ∃ parent, c ∈ elementCandidates catalog parent := by
  unfold tagCandidates at h
  simp only at h
  split at h
  · rename_i htag
    exact .inl ⟨htag, List.mem_singleton.mp h⟩
  · split at h
    · simp at h
    · exact .inr ⟨_, h⟩

theorem exists_of_mem_elementCandidates {parent : Text}
    (h : c ∈ elementCandidates catalog parent) : ∃ name e, c = elementCandidate name e := by
  unfold elementCandidates at h
  split at h <;> obtain ⟨_, -, rfl⟩ := List.mem_map.mp h <;> exact ⟨_, _, rfl⟩

-- What is proposed inside of a start tag comes from an entry of its element.
theorem mem_attributeCandidates {tag written : Text}
    (h : c ∈ attributeCandidates catalog tag written) :
    (catalog.element? tag).isSome ∧
      c = attributeCandidate c.label (catalog.resolve tag c.label) := by
  unfold attributeCandidates at h
  split at h
  · simp at h
  · rename_i e he
    obtain ⟨entry, -, rfl⟩ := List.mem_map.mp h
    exact ⟨by rw [he, Option.isSome_some], rfl⟩

theorem exists_of_mem_nameCandidates (h : c ∈ nameCandidates catalog text pos) :
    ∃ name a, c = attributeCandidate name a := by
  unfold nameCandidates at h
  split at h
  · simp at h
  · exact ⟨_, _, (mem_attributeCandidates h).2⟩

theorem exists_of_mem_enumCandidates (h : c ∈ enumCandidates catalog text pos) :
    ∃ v, c = valueCandidate v := by
  unfold enumCandidates at h
  split at h
  · simp at h
  · rename_i found _
    split at h
    · simp at h
    · cases hresolve : catalog.resolve found.tag found.name with
      | none => simp [hresolve] at h
      | some a =>
        rw [hresolve, Option.map_some, Option.getD_some] at h
        obtain ⟨v, -, rfl⟩ := List.mem_map.mp h
        exact ⟨v, rfl⟩

end SvgAssist.Completion
