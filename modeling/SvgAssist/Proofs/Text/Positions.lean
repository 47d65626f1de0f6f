import SvgAssist.Proofs.Text.Lines

/-!
# Offsets and positions

A line has its carriage return in the text, but no position stands behind it. An offset therefore
goes to its position and back unless it stands there, and a position of a line goes to its offset
and back. Any other position goes to the offset of one that does (`positions_invert`).
-/

namespace SvgAssist.Text

/-! ## From offsets -/

-- A carriage return ends its line in front of a newline or at the end of the text.
theorem afterReturn_iff {text : Text} {o : Nat} (ho : o ≤ text.length) :
    AfterReturn text o ↔ 0 < o ∧ text[o - 1]? = some Byte.carriageReturn ∧
      (o = text.length ∨ text[o]? = some Byte.newline) := by
  have hend : text.drop o = [] ↔ o = text.length := by
    rw [List.drop_eq_nil_iff]
    omega
  have hnewline : [Byte.newline] <+: text.drop o ↔ text[o]? = some Byte.newline := by
    rw [← List.head?_drop]
    cases text.drop o with
    | nil => simp
    | cons b rest => simp [List.cons_prefix_cons, eq_comm]
  have hreturn : [Byte.carriageReturn] <:+ text.take o ↔
      0 < o ∧ text[o - 1]? = some Byte.carriageReturn := by
    cases o with
    | zero => simp
    | succ o =>
      have hb : text[o]? = some text[o] := List.getElem?_eq_getElem ho
      rw [List.take_add_one, Nat.add_sub_cancel, hb, Option.toList_some,
        List.singleton_suffix_append_singleton_iff, Option.some.injEq, eq_comm]
      simp
  rw [AfterReturn, hend, hnewline, hreturn, and_assoc]

-- An offset behind a carriage return that its line gives up comes back in front of it.
theorem offset_positionAt_of_afterReturn {text : Text} {o : Nat} (ho : o ≤ text.length)
    (h : AfterReturn text o) : offset text (positionAt text o) = o - 1 := by
  obtain ⟨⟨above, habove⟩, hend⟩ := h
  have hbefore : ∃ l, lineBefore text o = l ++ [Byte.carriageReturn] := by
    refine ⟨(above.reverse.takeWhile (· ≠ Byte.newline)).reverse, ?_⟩
    rw [lineBefore, ← habove, List.reverse_concat, List.takeWhile_cons_of_pos (by decide),
      List.reverse_cons]
  have hafter : lineAfter text o = [] := by
    unfold lineAfter
    rcases hend with hnil | ⟨rest, hrest⟩
    · rw [hnil, List.takeWhile_nil]
    · rw [← hrest, List.singleton_append, List.takeWhile_cons_of_neg (by decide)]
  obtain ⟨l, hl⟩ := hbefore
  have hsum := length_linesBefore ho
  rw [positionAt_natCast, offset_at, hafter, List.append_nil]
  rw [hl, List.length_append, List.length_singleton] at hsum ⊢
  rw [withoutReturn_append_return, Nat.min_eq_right (Nat.le_succ _)]
  omega

/-! ## From positions -/

-- The text in front of a line, and the line with all behind it.
theorem exists_split_at_line {text : Text} {n : Nat} (h : n < lineCount text) :
    ∃ front rest, front ++ rest = text ∧ EndsLine front ∧ front.count Byte.newline = n := by
  rw [lineCount_eq, Nat.lt_succ_iff] at h
  induction n with
  | zero => exact ⟨[], text, rfl, .inl rfl, List.count_nil⟩
  | succ n ih =>
    obtain ⟨front, rest, rfl, -, hcount⟩ := ih (Nat.le_of_succ_le h)
    have hmore : Byte.newline ∈ rest := by
      rw [List.count_append, hcount] at h
      exact List.count_pos_iff.mp (by omega)
    obtain ⟨inside, behind, rfl, hfree⟩ := List.eq_append_cons_of_mem hmore
    refine ⟨front ++ inside ++ [Byte.newline], behind, by simp, .inr ⟨_, rfl⟩, ?_⟩
    rw [List.count_append, List.count_append, hcount, List.count_eq_zero.mpr hfree,
      List.count_singleton_self]

-- Whatever ended lines stand in front, only the rest is on the line of the offset.
theorem positionAt_of_take {text front inside : Text} {o : Nat} (hfront : EndsLine front)
    (htake : text.take o = front ++ inside) (hinside : Byte.newline ∉ inside) :
    positionAt text o = ⟨front.count Byte.newline, inside.length⟩ := by
  have habove : front.reverse.takeWhile (· ≠ Byte.newline) = [] := by
    rcases hfront with rfl | ⟨a, rfl⟩
    · rfl
    · rw [List.reverse_concat, List.takeWhile_cons_of_neg (by decide)]
  rw [positionAt_natCast, lineBefore, htake, List.reverse_append,
    takeWhile_append_of_notMem (mt List.mem_reverse.mp hinside), habove, List.append_nil,
    List.reverse_reverse, List.count_append, List.count_eq_zero.mpr hinside, Nat.add_zero]

def clamped (text : Text) (pos : Position) : Position :=
  ⟨pos.line, (min pos.column.toNat (line text pos.line).length : Nat)⟩

theorem clamped_of_le {text : Text} {pos : Position} (hlow : 0 ≤ pos.column)
    (hle : pos.column ≤ (line text pos.line).length) : clamped text pos = pos := by
  have hcolumn : ((min pos.column.toNat (line text pos.line).length : Nat) : Int) = pos.column := by
    omega
  rw [clamped, hcolumn]

-- Clamping is what reading an offset does anyway.
theorem offset_clamped (text : Text) (pos : Position) :
    offset text (clamped text pos) = offset text pos := by
  unfold offset clamped
  simp only [Int.toNat_natCast, min_assoc, min_self]

-- On a line of the text, the offset of a position is that of the clamped one, which it goes back
-- to.
theorem positionAt_offset {text : Text} {pos : Position} (hlow : 0 ≤ pos.line)
    (hline : pos.line < lineCount text) : positionAt text (offset text pos) = clamped text pos := by
  obtain ⟨front, rest, rfl, hfront, hcount⟩ :=
    exists_split_at_line (show pos.line.toNat < lineCount text by omega)
  obtain ⟨n, column⟩ := pos
  obtain rfl : n = (front.count Byte.newline : Nat) := by
    simp only at hlow hcount
    omega
  have htake := take_offset_count hfront rest column
  have hfree : Byte.newline ∉
      (withoutReturn (rest.takeWhile (· ≠ Byte.newline))).take column.toNat := by
    intro hmem
    have hmem := (isPrefix_withoutReturn _).mem (List.mem_of_mem_take hmem)
    simpa using List.mem_takeWhile_imp hmem
  rw [positionAt_of_take hfront htake hfree, clamped, List.length_take, line_count hfront]

theorem offset_le_length (text : Text) (pos : Position) : offset text pos ≤ text.length := by
  by_cases hlow : pos.line < 0
  · rw [offset, if_pos hlow]
    exact Nat.zero_le _
  by_cases hline : lineCount text ≤ pos.line
  · rw [offset, if_neg hlow, if_pos hline]
  obtain ⟨front, rest, hsplit, hfront, hcount⟩ :=
    exists_split_at_line (show pos.line.toNat < lineCount text by omega)
  have hoffset := offset_count hfront rest (min pos.column.toNat (line text pos.line).length)
  have hinside : (withoutReturn (rest.takeWhile (· ≠ Byte.newline))).length ≤ rest.length :=
    ((isPrefix_withoutReturn _).trans (List.takeWhile_prefix _)).length_le
  have hnumber : ((front.count Byte.newline : Nat) : Int) = pos.line := by omega
  rw [hnumber, hsplit] at hoffset
  rw [← offset_clamped, clamped, hoffset, ← hsplit, List.length_append]
  omega

/-- Offsets and positions are inverse to each other up to the carriage returns that lines give up.
An offset goes to its position and back, unless it stands behind a carriage return in front of a
newline or at the end of the text, which takes it one byte back. A position of a line goes to its
offset and back. Every position has an offset in the text, and one whose line is not behind the
text goes to an offset that is kept. -/
theorem positions_invert (text : Text) :
    (∀ o ≤ text.length, offset text (positionAt text o) =
      if 0 < o ∧ text[o - 1]? = some Byte.carriageReturn ∧
          (o = text.length ∨ text[o]? = some Byte.newline)
        then o - 1 else o) ∧
    (∀ pos : Position, 0 ≤ pos.line → pos.line < lineCount text → 0 ≤ pos.column →
      pos.column ≤ (line text pos.line).length → positionAt text (offset text pos) = pos) ∧
    ∀ pos : Position, offset text pos ≤ text.length ∧
      (pos.line < lineCount text →
        offset text (positionAt text (offset text pos)) = offset text pos) := by
  refine ⟨fun o ho => ?_, fun pos hlow hline hcolumn hle => ?_, fun pos => ⟨?_, fun hline => ?_⟩⟩
  · simp only [← afterReturn_iff ho]
    split_ifs with hafter
    · exact offset_positionAt_of_afterReturn ho hafter
    · exact offset_positionAt ho hafter
  · rw [positionAt_offset hlow hline, clamped_of_le hcolumn hle]
  · exact offset_le_length text pos
  · by_cases hlow : pos.line < 0
    -- Every position in front of the text goes to its start, which no carriage return is before.
    · have hstart : offset text pos = 0 := if_pos hlow
      have hafter : ¬ AfterReturn text 0 := fun h => absurd h.1 (by simp)
      rw [hstart]
      exact offset_positionAt (Nat.zero_le _) hafter
    · rw [positionAt_offset (Int.not_lt.mp hlow) hline, offset_clamped]

/-- A carriage return inside of a line, one that ends a line and one that ends the text. -/
theorem positions_invert_returns :
    let text := utf8 "a\rb\r\nc\r"
    offset text (positionAt text (2 : Nat)) = 2 ∧ offset text (positionAt text (4 : Nat)) = 3 ∧
      offset text (positionAt text (7 : Nat)) = 6 ∧
      positionAt text (offset text ⟨0, 3⟩) = ⟨0, 3⟩ ∧
      offset text ⟨1, 9⟩ = 6 ∧ offset text (positionAt text (offset text ⟨1, 9⟩)) = 6 := by
  intro text
  obtain ⟨hoffset, hposition, hany⟩ := positions_invert text
  have hinside := hoffset 2 (by decide)
  have hending := hoffset 4 (by decide)
  have hlast := hoffset 7 (by decide)
  have hcolumn : offset text ⟨1, 9⟩ = 6 := by decide
  have hback := (hany ⟨1, 9⟩).2 (by decide)
  rw [hcolumn] at hback ⊢
  exact ⟨hinside.trans (by decide), hending.trans (by decide), hlast.trans (by decide),
    hposition ⟨0, 3⟩ (by decide) (by decide) (by decide) (by decide), rfl, hback⟩

end SvgAssist.Text
