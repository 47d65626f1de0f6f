import SvgAssist.Text.Basic
import Mathlib.Data.List.Basic
import Mathlib.Data.Nat.Find

/-!
# Searching a text

`Text.indexOf` gives the first place where a pattern stands (`indexOf_eq_some_iff`). A text that is
cut off keeps the place of a pattern that was in front of the cut (`indexOf_take`), and a terminator
that no proper end of it begins is found right behind a text that does not hold it
(`indexOf_append_terminator`). A word with a separator in front is not found across another one
(`infix_append_separator_iff`).
-/

namespace SvgAssist.Text

theorem indexFrom_eq_map (pattern : Text) (offset : Nat) (text : Text) :
    indexFrom pattern offset text = (indexOf pattern text).map (offset + ·) := by
  unfold indexOf
  induction text generalizing offset with
  | nil => by_cases h : pattern = [] <;> simp [indexFrom, h]
  | cons b rest ih =>
    simp only [indexFrom]
    split
    · simp
    · rw [ih (offset + 1), ih (0 + 1), Option.map_map]
      congr 1
      funext i
      simp only [Function.comp_apply]
      omega

-- The pattern stands at the first byte or is looked for behind it.
theorem indexOf_cons (pattern : Text) (b : UInt8) (rest : Text) :
    indexOf pattern (b :: rest) =
      if pattern <+: b :: rest then some 0 else (indexOf pattern rest).map (1 + ·) := by
  rw [indexOf, indexFrom]
  by_cases h : pattern <+: b :: rest
  · rw [if_pos (List.isPrefixOf_iff_prefix.mpr h), if_pos h]
  · rw [if_neg (fun hp => h (List.isPrefixOf_iff_prefix.mp hp)), if_neg h, indexFrom_eq_map]

/-- The place of a pattern is the first one where it stands. -/
theorem indexOf_eq_some_iff {pattern text : Text} {i : Nat} :
    indexOf pattern text = some i ↔
      pattern <+: text.drop i ∧ ∀ j < i, ¬ pattern <+: text.drop j := by
  induction text generalizing i with
  | nil =>
    simp only [indexOf, indexFrom, List.drop_nil, List.prefix_nil]
    by_cases h : pattern = []
    · simp only [h, if_true, Option.some.injEq, not_true_eq_false, true_and]
      exact ⟨fun hi j hj => by omega, fun hi => by
        by_contra hne
        exact hi 0 (by omega)⟩
    · simp [h]
  | cons b rest ih =>
    rw [indexOf_cons]
    by_cases h : pattern <+: b :: rest
    · rw [if_pos h, Option.some.injEq]
      constructor
      · rintro rfl
        exact ⟨h, fun j hj => absurd hj (Nat.not_lt_zero j)⟩
      · rintro ⟨-, hfirst⟩
        by_contra hne
        exact hfirst 0 (by omega) h
    · rw [if_neg h, Option.map_eq_some_iff]
      constructor
      · rintro ⟨k, hk, rfl⟩
        obtain ⟨hat, hfirst⟩ := ih.mp hk
        refine ⟨by rwa [Nat.add_comm, List.drop_succ_cons], fun j hj => ?_⟩
        cases j with
        | zero => exact h
        | succ j => exact hfirst j (by omega)
      · rintro ⟨hat, hfirst⟩
        cases i with
        | zero => exact absurd hat h
        | succ i =>
          exact ⟨i, ih.mpr ⟨hat, fun j hj => hfirst (j + 1) (by omega)⟩, Nat.add_comm 1 i⟩

-- The search finds an occurrence no later than any other.
theorem exists_indexOf_le {pattern text : Text} {j : Nat} (h : pattern <+: text.drop j) :
    ∃ i ≤ j, indexOf pattern text = some i := by
  classical
  have hex : ∃ k, pattern <+: text.drop k := ⟨j, h⟩
  exact ⟨Nat.find hex, Nat.find_min' hex h,
    indexOf_eq_some_iff.mpr ⟨Nat.find_spec hex, fun k hk => Nat.find_min hex hk⟩⟩

theorem indexOf_eq_none_iff {pattern text : Text} :
    indexOf pattern text = none ↔ ∀ j, ¬ pattern <+: text.drop j := by
  constructor
  · intro hnone j hj
    obtain ⟨i, -, hi⟩ := exists_indexOf_le hj
    rw [hnone] at hi
    exact absurd hi (by simp)
  · intro h
    cases hi : indexOf pattern text with
    | none => rfl
    | some i => exact absurd (indexOf_eq_some_iff.mp hi).1 (h i)

/-- In a text that is cut off, a pattern stands where it stood before if it ends in front of the
cut, and nowhere otherwise. -/
theorem indexOf_take (pattern text : Text) (c : Nat) :
    indexOf pattern (text.take c) =
      (indexOf pattern text).filter (fun i => i + pattern.length ≤ c) := by
  have hcut (j : Nat) : pattern <+: (text.take c).drop j ↔
      pattern <+: text.drop j ∧ pattern.length ≤ c - j := by
    rw [List.drop_take, List.prefix_take_iff]
  cases hi : indexOf pattern text with
  | none =>
    rw [Option.filter_none, indexOf_eq_none_iff]
    exact fun j hj => indexOf_eq_none_iff.mp hi j ((hcut j).mp hj).1
  | some i =>
    obtain ⟨hat, hfirst⟩ := indexOf_eq_some_iff.mp hi
    by_cases hfits : i + pattern.length ≤ c
    · rw [Option.filter_some_pos (by simpa using hfits), indexOf_eq_some_iff]
      exact ⟨(hcut i).mpr ⟨hat, by omega⟩, fun j hj hp => hfirst j hj ((hcut j).mp hp).1⟩
    -- A later place than the first one is no better: it ends behind the cut too.
    · rw [Option.filter_some_neg (by simpa using hfits), indexOf_eq_none_iff]
      intro j hp
      obtain ⟨hj, hlen⟩ := (hcut j).mp hp
      have hij : i ≤ j := by
        by_contra hlt
        exact hfirst j (by omega) hj
      by_cases hempty : pattern = []
      · subst hempty
        have hzero : i = 0 := by
          by_contra hne
          exact hfirst 0 (by omega) (List.nil_prefix)
        simp only [List.length_nil, hzero] at hfits
        omega
      · have hlenPos := List.length_pos_iff.mpr hempty
        omega

/-- No proper end of a terminator begins it, so that two of them never overlap. -/
def Unbordered (terminator : Text) : Prop :=
  ∀ k < terminator.length, 0 < k → ¬ terminator.drop k <+: terminator

instance (terminator : Text) : Decidable (Unbordered terminator) :=
  inferInstanceAs (Decidable (∀ k < terminator.length, 0 < k → ¬ terminator.drop k <+: terminator))

/-- Behind a text that does not hold it, a terminator is found where it was put. -/
theorem indexOf_append_terminator {terminator body : Text} (hborder : Unbordered terminator)
    (hbody : ¬ terminator <:+: body) (tail : Text) :
    indexOf terminator (body ++ (terminator ++ tail)) = some body.length := by
  rw [indexOf_eq_some_iff]
  constructor
  · rw [List.drop_left]
    exact List.prefix_append terminator tail
  · intro j hj hp
    rw [List.drop_append_of_le_length (by omega)] at hp
    by_cases hfits : terminator.length ≤ (body.drop j).length
    -- It would stand inside of the body.
    · have hin : terminator <+: body.drop j :=
        List.prefix_of_prefix_length_le hp (List.prefix_append _ _) hfits
      exact hbody (hin.isInfix.trans (List.drop_suffix j body).isInfix)
    -- It would reach into its own copy behind the body, which begins with a proper end of it.
    · have hsplit : body.drop j <+: terminator :=
        List.prefix_of_prefix_length_le (List.prefix_append _ _) hp (by omega)
      obtain ⟨front, hfront⟩ := hsplit
      have hlen : (body.drop j).length = body.length - j := List.length_drop
      have hdrop : terminator.drop (body.length - j) = front := by
        rw [← hfront, ← hlen, List.drop_left]
      refine hborder (body.length - j) (by omega) (by omega) ?_
      rw [hdrop]
      rw [← hfront, List.append_assoc] at hp
      have hrest := (List.prefix_append_right_inj _).mp hp
      rw [← List.append_assoc, hfront] at hrest
      exact List.prefix_of_prefix_length_le hrest (List.prefix_append _ _)
        (by rw [← hfront, List.length_append]; omega)

/-! ## Occurrences -/

theorem holds_iff {text pattern : Text} : holds text pattern ↔ pattern <:+: text := by
  rw [holds, Option.isSome_iff_exists]
  constructor
  · rintro ⟨i, hi⟩
    exact (indexOf_eq_some_iff.mp hi).1.isInfix.trans (List.drop_suffix i text).isInfix
  · rintro ⟨front, tail, rfl⟩
    have hat : pattern <+: (front ++ pattern ++ tail).drop front.length := by
      rw [List.append_assoc, List.drop_left]
      exact List.prefix_append pattern tail
    obtain ⟨i, -, hi⟩ := exists_indexOf_le hat
    exact ⟨i, hi⟩

-- A word without the separator is no start of a text that goes across one.
theorem prefix_append_separator_iff {separator : UInt8} {word front behind : Text}
    (hword : separator ∉ word) : word <+: front ++ separator :: behind ↔ word <+: front := by
  constructor
  · rintro ⟨after, h⟩
    rcases List.append_eq_append_iff.mp h with ⟨gap, rfl, -⟩ | ⟨excess, rfl, hexcess⟩
    · exact List.prefix_append word gap
    · cases excess with
      | nil => exact ⟨[], by simp⟩
      | cons first excess =>
        obtain ⟨rfl, -⟩ := List.cons.inj hexcess
        exact absurd (List.mem_append_right front List.mem_cons_self) hword
  · exact fun h => h.trans (List.prefix_append front _)

-- A word behind a separator stands in front of any other separator, or right behind it, or further
-- behind, but not across it.
theorem infix_append_separator_iff {separator : UInt8} {word front behind : Text}
    (hword : separator ∉ word) :
    separator :: word <:+: front ++ separator :: behind ↔
      separator :: word <:+: front ∨ word <+: behind ∨ separator :: word <:+: behind := by
  constructor
  · rintro ⟨before, after, h⟩
    rw [List.append_assoc, List.append_eq_append_iff] at h
    rcases h with ⟨rest, rfl, hrest⟩ | ⟨rest, rfl, hrest⟩
    · cases rest with
      | nil => exact .inr (.inl ⟨after, (List.cons.inj hrest).2⟩)
      | cons first more =>
        obtain ⟨rfl, hmore⟩ := List.cons.inj hrest
        -- The word ends in front of the separator, since it does not hold it.
        rcases List.append_eq_append_iff.mp hmore with ⟨gap, rfl, -⟩ | ⟨excess, rfl, hexcess⟩
        · exact .inl ⟨before, gap, by simp⟩
        · cases excess with
          | nil => exact .inl ⟨before, [], by simp⟩
          | cons first excess =>
            obtain ⟨rfl, -⟩ := List.cons.inj hexcess
            exact absurd (List.mem_append_right more List.mem_cons_self) hword
    · cases rest with
      | nil => exact .inr (.inl ⟨after, (List.cons.inj hrest).2.symm⟩)
      | cons first more =>
        obtain ⟨-, hmore⟩ := List.cons.inj hrest
        exact .inr (.inr ⟨more, after, by simp [hmore]⟩)
  · rintro (⟨before, after, rfl⟩ | ⟨after, rfl⟩ | ⟨before, after, rfl⟩)
    · exact ⟨before, after ++ separator :: behind, by simp⟩
    · exact ⟨front, after, by simp⟩
    · exact ⟨front ++ separator :: before, after, by simp⟩

end SvgAssist.Text
