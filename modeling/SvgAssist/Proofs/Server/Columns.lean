import SvgAssist.Proofs.Server.Address
import Mathlib

/-!
# Columns of bytes and of UTF-16 units

The byte column of a UTF-16 column is behind as few characters as have that many units, or at the
end of the line (`Reaches`). The units in front of it are those asked for, but for a column that
splits a surrogate pair or is past the end (`columns_convert`).
-/

namespace SvgAssist

namespace Text

/-! ## The place of a column -/

-- The characters that the search goes over are the fewest with the units that it looks for, or all.
theorem exists_columnFrom (goal seen column : Nat) (ds : List Decoded) :
    ∃ k ≤ ds.length,
      columnFrom goal seen column ds = column + total ((ds.take k).map (·.width)) ∧
      (∀ j < k, seen + total ((ds.take j).map (·.units)) < goal) ∧
      (goal ≤ seen + total ((ds.take k).map (·.units)) ∨ k = ds.length) := by
  induction ds generalizing seen column with
  | nil => exact ⟨0, le_rfl, rfl, fun j hj => absurd hj (Nat.not_lt_zero j), .inr rfl⟩
  | cons d ds ih =>
    by_cases hgoal : goal ≤ seen
    · refine ⟨0, Nat.zero_le _, ?_, fun j hj => absurd hj (Nat.not_lt_zero j), .inl hgoal⟩
      rw [columnFrom, if_pos (by omega)]
      rfl
    · obtain ⟨k, hk, hcolumn, hbefore, hend⟩ := ih (seen + d.units) (column + d.width)
      refine ⟨k + 1, Nat.succ_le_succ hk, ?_, fun j hj => ?_, ?_⟩
      · rw [columnFrom, if_neg (by omega), List.take_succ_cons, List.map_cons, total_cons,
          ← Nat.add_assoc, ← hcolumn]
      · cases j with
        | zero => exact Nat.lt_of_not_le hgoal
        | succ j =>
          have hj := hbefore j (by omega)
          rwa [Nat.add_assoc] at hj
      · rw [Nat.add_assoc] at hend
        exact hend.imp_right (congrArg (· + 1))

/-- `k` characters stand in front of the byte column of a UTF-16 column. -/
structure Reaches (line : Text) (goal k : Nat) : Prop where
  le_length : k ≤ (chars line).length
  byteColumn_eq : byteColumn line goal = total (((chars line).take k).map (·.width))
  before : ∀ j < k, total (((chars line).take j).map (·.units)) < goal
  reached : goal ≤ total (((chars line).take k).map (·.units)) ∨ k = (chars line).length

-- The characters of a line are gone through until their units reach the goal.
theorem exists_reaches (line : Text) (goal : Nat) : ∃ k, Reaches line goal k := by
  obtain ⟨k, hk, hcolumn, hbefore, hreached⟩ := exists_columnFrom goal 0 0 (chars line)
  simp only [Nat.zero_add] at hcolumn hbefore hreached
  exact ⟨k, hk, hcolumn, hbefore, hreached⟩

def SplitsPair (line : Text) (goal : Nat) : Prop :=
  ∃ k d, (chars line)[k]? = some d ∧ d.units = 2 ∧
    goal = total (((chars line).take k).map (·.units)) + 1

-- Characters in front are decoded alike with and without those behind them.
theorem units_take_total (line : Text) (k : Nat) :
    units (line.take (total (((chars line).take k).map (·.width)))) =
      total (((chars line).take k).map (·.units)) := by
  rw [units, chars_take]

namespace Reaches

variable {line : Text} {goal k : Nat} (h : Reaches line goal k)
include h

theorem boundary : Boundary line (byteColumn line goal) := ⟨k, h.byteColumn_eq.symm⟩

theorem units_take : units (line.take (byteColumn line goal)) =
    total (((chars line).take k).map (·.units)) := by
  rw [h.byteColumn_eq, units_take_total]

-- A place between two characters that reaches the column is not in front of the one found.
theorem byteColumn_le {i : Nat} (hi : Boundary line i) (hgoal : goal ≤ units (line.take i)) :
    byteColumn line goal ≤ i := by
  obtain ⟨j, rfl⟩ := hi
  rw [units_take_total] at hgoal
  have hle : k ≤ j := by
    by_contra hlt
    have := h.before j (by omega)
    omega
  rw [h.byteColumn_eq]
  exact total_take_le (·.width) hle

theorem goal_le (hgoal : goal ≤ units line) :
    goal ≤ units (line.take (byteColumn line goal)) := by
  rw [h.units_take]
  rcases h.reached with hreached | hall
  · exact hreached
  · rwa [hall, List.take_length]

theorem isLeast (hgoal : goal ≤ units line) :
    IsLeast {i | Boundary line i ∧ goal ≤ units (line.take i)} (byteColumn line goal) :=
  ⟨⟨h.boundary, h.goal_le hgoal⟩, fun _ hi => h.byteColumn_le hi.1 hi.2⟩

-- A column past the end of the line becomes its end.
theorem byteColumn_of_lt (hpast : units line < goal) : byteColumn line goal = line.length := by
  have hall : k = (chars line).length := by
    refine h.reached.resolve_left fun hreached => ?_
    have hle := total_take_le_total (·.units) (chars line) k
    unfold units at hpast
    omega
  rw [h.byteColumn_eq, hall, List.take_length, total_width_chars]

-- A column inside of a surrogate pair moves to its end.
theorem of_splitsPair (hsplit : SplitsPair line goal) :
    units (line.take (byteColumn line goal)) = goal + 1 := by
  obtain ⟨j, d, hd, hunits, rfl⟩ := hsplit
  have hsucc := total_take_succ (·.units) hd
  rw [hunits] at hsucc
  -- The character that is split is the last that the search goes over.
  obtain rfl : k = j + 1 := by
    have hge : j < k := by
      by_contra hlt
      have hle : total (((chars line).take k).map (·.units)) ≤
          total (((chars line).take j).map (·.units)) :=
        total_take_le (·.units) (Nat.le_of_not_lt hlt)
      have hlen := (List.getElem?_eq_some_iff.mp hd).1
      rcases h.reached with hreached | hall <;> omega
    by_contra hne
    have := h.before (j + 1) (by omega)
    omega
  rw [h.units_take, hsucc]

theorem of_not_splitsPair (hsplit : ¬ SplitsPair line goal) (hgoal : goal ≤ units line) :
    units (line.take (byteColumn line goal)) = goal := by
  have hreached := h.goal_le hgoal
  rw [h.units_take] at hreached ⊢
  cases k with
  | zero => exact (Nat.le_zero.mp hreached).symm
  | succ j =>
    have hbefore := h.before j (Nat.lt_succ_self j)
    -- One character more reaches the goal, and it would be split if it went past it.
    have hlen : j < (chars line).length := h.le_length
    have hd := List.getElem?_eq_getElem hlen
    have hsucc := total_take_succ (·.units) hd
    have htwo := units_le_two (chars line)[j]
    rw [hsucc] at hreached ⊢
    by_contra hne
    exact hsplit ⟨j, _, hd, by omega, by omega⟩

end Reaches

end Text

namespace Server

open Text

/-- Columns of bytes and of UTF-16 units go over into each other. A place between two characters of
a line comes back from its units. The byte column of any UTF-16 column is the first such place with
so many units in front of it, or the end of the line; these are the units that were asked for, one
more where a surrogate pair is split, and those of the line past its end. So a place of a text comes
back from the position that the client is told. -/
theorem columns_convert :
    (∀ line : Text,
      (∀ i, Boundary line i → byteColumn line (units (line.take i)) = i) ∧
      ∀ goal : Nat,
        (IsLeast {i | Boundary line i ∧ goal ≤ units (line.take i)} (byteColumn line goal) ∨
          (∀ i, Boundary line i → units (line.take i) < goal) ∧
            byteColumn line goal = line.length) ∧
        (SplitsPair line goal → units (line.take (byteColumn line goal)) = goal + 1) ∧
        (units line < goal → units (line.take (byteColumn line goal)) = units line) ∧
        (¬ SplitsPair line goal → goal ≤ units line →
          units (line.take (byteColumn line goal)) = goal)) ∧
    ∀ (text : Text) (o : Nat), text.length < UInt32.size → o ≤ text.length →
      Boundary text o ∨
        Boundary (lineBefore text o ++ lineAfter text o) (lineBefore text o).length →
      ¬ AfterReturn text o → offset text (ofClient text (clientPositionAt text o)) = o := by
  refine ⟨fun line => ⟨fun i hi => byteColumn_units_take hi, fun goal => ?_⟩,
    fun text o hlen ho hboundary hafter => ?_⟩
  · obtain ⟨k, hk⟩ := exists_reaches line goal
    refine ⟨?_, hk.of_splitsPair, fun hpast => ?_, hk.of_not_splitsPair⟩
    · by_cases hgoal : goal ≤ units line
      · exact .inl (hk.isLeast hgoal)
      · have hpast := Nat.lt_of_not_le hgoal
        refine .inr ⟨fun i hi => ?_, hk.byteColumn_of_lt hpast⟩
        obtain ⟨j, rfl⟩ := hi
        rw [units_take_total]
        exact (total_take_le_total (·.units) (chars line) j).trans_lt hpast
    · rw [hk.byteColumn_of_lt hpast, List.take_length]
  · have hcaret : Caret text o := by
      rcases hboundary with hboundary | hboundary
      · exact .of_boundary ho hboundary hafter
      · exact ⟨ho, hboundary, hafter⟩
    rw [clientPositionAt_eq_place hcaret]
    exact (place_addresses hlen o).offset_ofClient hcaret

/-- The third unit splits the pair of the second character, and the last byte is no character. -/
theorem columns_convert_pair :
    let line := utf8 "é𝄞" ++ [0xff]
    let text := utf8 "a\r\n" ++ line
    SplitsPair line 2 ∧ units (line.take (byteColumn line 2)) = 3 ∧ byteColumn line 2 = 6 ∧
      Boundary text 9 ∧ clientPositionAt text (9 : Nat) = ⟨1, 3⟩ ∧
      offset text (ofClient text ⟨1, 3⟩) = 9 := by
  intro line text
  have hsplit : SplitsPair line 2 := ⟨1, ⟨'𝄞', 4⟩, by cbv, by decide, by cbv⟩
  have hboundary : Boundary text 9 := ⟨5, by cbv⟩
  have hplace : clientPositionAt text (9 : Nat) = ⟨1, 3⟩ := by cbv
  have hback := columns_convert.2 text 9 (by decide) (by decide) (.inl hboundary) (by decide)
  rw [hplace] at hback
  exact ⟨hsplit, ((columns_convert.1 line).2 2).2.1 hsplit, by cbv, hboundary, hplace, hback⟩

end Server

end SvgAssist
