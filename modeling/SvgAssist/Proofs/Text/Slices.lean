import SvgAssist.Proofs.Text.Positions

/-!
# Slices of a text

Clamping keeps the order of positions (`offset_le_offset`), also of those outside of the text. So
the slices between positions in order join to one (`slices_join`).
-/

namespace SvgAssist

-- Positions are in order by line and then by column.
theorem Position.le_iff {a b : Position} :
    a.le b ↔ a.line < b.line ∨ a.line = b.line ∧ a.column ≤ b.column := by
  simp [le]

namespace Text

/-! ## The order of offsets -/

theorem offset_of_negative {text : Text} {pos : Position} (h : pos.line < 0) :
    offset text pos = 0 :=
  if_pos h

-- A line behind the text has its offset at the end of the text.
theorem offset_behind {text : Text} {pos : Position} (h : (lineCount text : Int) ≤ pos.line) :
    offset text pos = text.length := by
  rw [offset, if_neg (by omega), if_pos h]

-- On the lines of a text, the newlines in front of an offset tell its line.
theorem count_take_offset {text : Text} {pos : Position} (hlow : 0 ≤ pos.line)
    (hline : pos.line < lineCount text) :
    (((text.take (offset text pos)).count Byte.newline : Nat) : Int) = pos.line := by
  have hposition := positionAt_offset hlow hline
  rw [positionAt_natCast, clamped] at hposition
  exact congrArg Position.line hposition

-- Whatever its column, a position on an earlier line has no later offset.
theorem offset_le_of_line_lt {text : Text} {a b : Position} (hlow : 0 ≤ a.line)
    (hline : b.line < lineCount text) (h : a.line < b.line) : offset text a ≤ offset text b := by
  by_contra hlt
  have hcount := count_take_le text (Nat.le_of_not_le hlt)
  have hfirst := count_take_offset hlow (Int.lt_trans h hline)
  have hsecond := count_take_offset (Int.le_trans hlow (Int.le_of_lt h)) hline
  omega

theorem offset_le_of_column_le (text : Text) (line : Int) {a b : Int} (h : a ≤ b) :
    offset text ⟨line, a⟩ ≤ offset text ⟨line, b⟩ := by
  unfold offset
  simp only
  split_ifs
  · exact le_rfl
  · exact le_rfl
  · have hcolumn : a.toNat ≤ b.toNat := Int.toNat_le_toNat h
    omega

/-- The offsets of positions in order are in order. -/
theorem offset_le_offset (text : Text) {a b : Position} (h : a.le b) :
    offset text a ≤ offset text b := by
  by_cases hlow : a.line < 0
  · rw [offset_of_negative hlow]
    exact Nat.zero_le _
  by_cases hbehind : (lineCount text : Int) ≤ b.line
  · rw [offset_behind hbehind]
    exact offset_le_length text a
  rcases Position.le_iff.mp h with hline | ⟨hline, hcolumn⟩
  · exact offset_le_of_line_lt (Int.not_lt.mp hlow) (Int.not_le.mp hbehind) hline
  · obtain ⟨line, column⟩ := b
    obtain rfl : a.line = line := hline
    exact offset_le_of_column_le text a.line hcolumn

/-! ## Slices -/

-- Slices that meet are joined to one.
theorem slice_append_slice {text : Text} {a b c : Position} (hab : offset text a ≤ offset text b)
    (hbc : offset text b ≤ offset text c) :
    slice text ⟨a, b⟩ ++ slice text ⟨b, c⟩ = slice text ⟨a, c⟩ := by
  have hsplit : offset text c - offset text a =
      (offset text b - offset text a) + (offset text c - offset text b) := by omega
  have hmiddle : offset text a + (offset text b - offset text a) = offset text b := by omega
  simp only [slice]
  rw [hsplit, List.take_add, List.drop_drop, hmiddle]

/-- Positions in order, be they in the text or outside of it, have offsets in order. What stands
between the first and the second and what stands between the second and the third join to what
stands between the first and the third. What stands before the first begins what stands before the
second. -/
theorem slices_join (text : Text) {a b c : Position} (hab : a.le b) (hbc : b.le c) :
    (offset text a ≤ offset text b ∧ offset text b ≤ offset text c) ∧
      slice text ⟨a, b⟩ ++ slice text ⟨b, c⟩ = slice text ⟨a, c⟩ ∧
      before text a <+: before text b := by
  have hfirst := offset_le_offset text hab
  have hsecond := offset_le_offset text hbc
  refine ⟨⟨hfirst, hsecond⟩, slice_append_slice hfirst hsecond, ?_⟩
  rw [before_eq_take, before_eq_take]
  exact List.take_prefix_take_left hfirst

/-- In front of the text, behind the carriage return that a line gives up, and behind the text. -/
theorem slices_join_outside :
    let text := utf8 "ab\r\nc"
    let a : Position := ⟨-1, 7⟩
    let b : Position := ⟨0, 9⟩
    let c : Position := ⟨5, -2⟩
    a.le b ∧ b.le c ∧ offset text b = 2 ∧ offset text c = 5 ∧
      utf8 "ab" ++ slice text ⟨b, c⟩ = slice text ⟨a, c⟩ ∧ [] <+: before text b := by
  intro text a b c
  have hab : a.le b := by decide
  have hbc : b.le c := by decide
  have hslice : slice text ⟨a, b⟩ = utf8 "ab" := by decide
  have hbefore : before text a = [] := by decide
  obtain ⟨-, hjoin, hprefix⟩ := slices_join text hab hbc
  rw [hslice] at hjoin
  rw [hbefore] at hprefix
  exact ⟨hab, hbc, by decide, by decide, hjoin, hprefix⟩

end Text

end SvgAssist
