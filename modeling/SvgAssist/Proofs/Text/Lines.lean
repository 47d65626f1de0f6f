import SvgAssist.Position
import Mathlib.Data.List.TakeWhile

/-!
# Lines and offsets

A text is read as `front ++ rest`, where `front` is nothing or ends a line. Everything that is
computed about the line that begins there, its number, its start and its bytes, is told by this
split. With it an offset goes to a position and back (`offset_positionAt`), unless it stands behind
a carriage return that its line gives up.
-/

namespace SvgAssist.Text

/-! ## Lines -/

theorem lines_nil : lines [] = [[]] := rfl

-- A newline ends an empty line at the front.
theorem lines_cons_newline (rest : Text) : lines (Byte.newline :: rest) = [] :: lines rest := rfl

-- Even the empty text has one line.
theorem lines_ne_nil (text : Text) : lines text ≠ [] := by
  cases text with
  | nil => simp [lines_nil]
  | cons b rest =>
    simp only [lines, pieces, List.foldr_cons]
    split_ifs
    · simp
    · split <;> simp

theorem lines_cons_of_ne {b : UInt8} (hb : b ≠ Byte.newline) {rest l : Text} {ls : List Text}
    (h : lines rest = l :: ls) : lines (b :: rest) = (b :: l) :: ls := by
  unfold lines pieces at h ⊢
  rw [List.foldr_cons, h]
  simp [hb]

-- A newline divides the lines.
theorem lines_append_newline (a b : Text) :
    lines (a ++ Byte.newline :: b) = lines a ++ lines b := by
  induction a with
  | nil => rfl
  | cons c a ih =>
    by_cases hc : c = Byte.newline
    · subst hc
      rw [List.cons_append, lines_cons_newline, ih, lines_cons_newline, List.cons_append]
    · obtain ⟨l, ls, hl⟩ := List.exists_cons_of_ne_nil (lines_ne_nil a)
      rw [hl, List.cons_append] at ih
      rw [List.cons_append, lines_cons_of_ne hc ih, lines_cons_of_ne hc hl, List.cons_append]

-- There is one line more than newlines.
theorem lineCount_eq (text : Text) : lineCount text = text.count Byte.newline + 1 := by
  unfold lineCount
  induction text with
  | nil => rfl
  | cons c a ih =>
    by_cases hc : c = Byte.newline
    · subst hc
      rw [lines_cons_newline, List.length_cons, ih, List.count_cons_self]
    · obtain ⟨l, ls, hl⟩ := List.exists_cons_of_ne_nil (lines_ne_nil a)
      rw [lines_cons_of_ne hc hl, List.count_cons_of_ne (hc), ← ih, hl]
      rfl

-- The lines and their newlines are all of a text.
theorem total_lines (text : Text) :
    total ((lines text).map (·.length + 1)) = text.length + 1 := by
  induction text with
  | nil => rfl
  | cons c a ih =>
    by_cases hc : c = Byte.newline
    · subst hc
      rw [lines_cons_newline, List.map_cons, List.length_cons, ← ih]
      simp [total, Nat.add_comm]
    · obtain ⟨l, ls, hl⟩ := List.exists_cons_of_ne_nil (lines_ne_nil a)
      rw [lines_cons_of_ne hc hl, List.length_cons, ← ih, hl]
      simp only [total, List.map_cons, List.foldr_cons, List.length_cons]
      omega

-- The lines joined by newlines are the text.
theorem intercalate_lines (text : Text) : [Byte.newline].intercalate (lines text) = text := by
  induction text with
  | nil => rfl
  | cons c a ih =>
    obtain ⟨l, ls, hl⟩ := List.exists_cons_of_ne_nil (lines_ne_nil a)
    by_cases hc : c = Byte.newline
    · subst hc
      rw [lines_cons_newline, hl, List.intercalate_cons_cons, ← hl, ih]
      rfl
    · rw [hl] at ih
      rw [lines_cons_of_ne hc hl]
      cases ls with
      | nil =>
        rw [List.intercalate_singleton] at ih ⊢
        rw [ih]
      | cons l' ls =>
        rw [List.intercalate_cons_cons] at ih ⊢
        rw [← ih]
        rfl

-- The first line goes up to the first newline.
theorem lines_eq_cons (text : Text) :
    ∃ more, lines text = text.takeWhile (· ≠ Byte.newline) :: more := by
  induction text with
  | nil => exact ⟨[], rfl⟩
  | cons b rest ih =>
    obtain ⟨more, hmore⟩ := ih
    by_cases hb : b = Byte.newline
    · subst hb
      exact ⟨lines rest, lines_cons_newline rest⟩
    · rw [lines_cons_of_ne hb hmore, List.takeWhile_cons_of_pos (by simpa using hb)]
      exact ⟨more, rfl⟩

-- What has no newline is all on one line with what stands behind it.
theorem takeWhile_append_of_notMem {l : Text} (h : Byte.newline ∉ l) (rest : Text) :
    (l ++ rest).takeWhile (· ≠ Byte.newline) = l ++ rest.takeWhile (· ≠ Byte.newline) := by
  apply List.takeWhile_append_of_pos
  exact fun b hb => decide_eq_true fun heq => h (heq ▸ hb)

theorem takeWhile_of_notMem {l : Text} (h : Byte.newline ∉ l) :
    l.takeWhile (· ≠ Byte.newline) = l := by
  have hall := takeWhile_append_of_notMem h []
  rwa [List.takeWhile_nil, List.append_nil] at hall

theorem takeWhile_append_newline {l : Text} (h : Byte.newline ∉ l) (rest : Text) :
    (l ++ Byte.newline :: rest).takeWhile (· ≠ Byte.newline) = l := by
  rw [takeWhile_append_of_notMem h, List.takeWhile_cons_of_neg (by decide), List.append_nil]

-- Whether a newline stands in a text shows in how far it goes without one.
theorem length_takeWhile_lt_iff {l : Text} :
    (l.takeWhile (· ≠ Byte.newline)).length < l.length ↔ Byte.newline ∈ l := by
  constructor
  · intro hlt
    by_contra hfree
    rw [takeWhile_of_notMem hfree] at hlt
    exact hlt.false
  · intro hmem
    obtain ⟨front, rest, rfl, hfree⟩ := List.eq_append_cons_of_mem hmem
    rw [takeWhile_append_newline hfree, List.length_append, List.length_cons]
    omega

theorem lines_of_notMem {l : Text} (h : Byte.newline ∉ l) : lines l = [l] := by
  obtain ⟨more, hmore⟩ := lines_eq_cons l
  have hcount := lineCount_eq l
  rw [lineCount, hmore, List.length_cons, List.count_eq_zero.mpr h] at hcount
  have hnone : more = [] := by
    apply List.eq_nil_of_length_eq_zero
    omega
  rw [hmore, hnone, takeWhile_of_notMem h]

theorem fromLine_eq_nil {text : Text} {n : Nat} (h : text.count Byte.newline < n) :
    fromLine n text = [] := by
  induction text generalizing n with
  | nil =>
    cases n with
    | zero => exact absurd h (Nat.not_lt_zero _)
    | succ n => rfl
  | cons b rest ih =>
    cases n with
    | zero => exact absurd h (Nat.not_lt_zero _)
    | succ n =>
      rw [fromLine]
      by_cases hb : b = Byte.newline
      · subst hb
        rw [List.count_cons_self] at h
        rw [if_pos rfl, ih (by omega)]
      · rw [List.count_cons_of_ne hb] at h
        rw [if_neg hb, ih h]

-- Nothing stands on a line outside of the text.
theorem line_outside {text : Text} {n : Int} (h : n < 0 ∨ lineCount text ≤ n) :
    line text n = [] := by
  unfold line
  split_ifs with hlow
  · rfl
  · rw [lineCount_eq] at h
    rw [fromLine_eq_nil (by omega)]
    rfl

/-! ## The end of a line -/

theorem withoutTail_append (front tail : Text) : withoutTail tail (front ++ tail) = front := by
  have hsuffix : tail.isSuffixOf (front ++ tail) = true :=
    List.isSuffixOf_iff_suffix.mpr (List.suffix_append front tail)
  rw [withoutTail, if_pos hsuffix, List.length_append, Nat.add_sub_cancel, List.take_left]

theorem withoutReturn_append_return (l : Text) :
    withoutReturn (l ++ [Byte.carriageReturn]) = l :=
  withoutTail_append l [Byte.carriageReturn]

theorem withoutReturn_of_not_suffix {l : Text} (h : ¬ [Byte.carriageReturn] <:+ l) :
    withoutReturn l = l :=
  if_neg fun hsuffix => h (List.isSuffixOf_iff_suffix.mp hsuffix)

-- Only the end of a line is taken away.
theorem isPrefix_withoutReturn (l : Text) : withoutReturn l <+: l := by
  by_cases h : [Byte.carriageReturn] <:+ l
  · obtain ⟨a, rfl⟩ := h
    rw [withoutReturn_append_return]
    exact List.prefix_append a _
  · exact ⟨[], by rw [List.append_nil, withoutReturn_of_not_suffix h]⟩

/-! ## The start of a line -/

/-- A text behind which a line begins. -/
def EndsLine (front : Text) : Prop := front = [] ∨ ∃ a, front = a ++ [Byte.newline]

variable {front : Text} (hfront : EndsLine front)
include hfront

-- The lines above stay what they are, whatever follows.
theorem exists_lines_above :
    ∃ above, above.length = front.count Byte.newline ∧
      total (above.map (·.length + 1)) = front.length ∧
      ∀ rest, lines (front ++ rest) = above ++ lines rest := by
  rcases hfront with rfl | ⟨a, rfl⟩
  · exact ⟨[], rfl, rfl, fun rest => rfl⟩
  · refine ⟨lines a, ?_, ?_, fun rest => ?_⟩
    · rw [List.count_append, List.count_singleton_self]
      exact lineCount_eq a
    · rw [total_lines, List.length_append, List.length_singleton]
    · rw [List.append_assoc, List.singleton_append, lines_append_newline]

theorem lineStart_count (rest : Text) :
    lineStart (front ++ rest) (front.count Byte.newline) = front.length := by
  obtain ⟨above, hcount, htotal, hlines⟩ := exists_lines_above hfront
  rw [lineStart, hlines, ← hcount, List.take_left, htotal]

theorem getElem?_lines (rest : Text) :
    (lines (front ++ rest))[front.count Byte.newline]? =
      some (rest.takeWhile (· ≠ Byte.newline)) := by
  obtain ⟨above, hcount, -, hlines⟩ := exists_lines_above hfront
  obtain ⟨more, hmore⟩ := lines_eq_cons rest
  rw [hlines, ← hcount, List.getElem?_append_right le_rfl, Nat.sub_self, hmore,
    List.getElem?_cons_zero]

omit hfront in
theorem fromLine_append_newline (a rest : Text) :
    fromLine (a.count Byte.newline + 1) (a ++ Byte.newline :: rest) = rest := by
  induction a with
  | nil => simp [fromLine]
  | cons c a ih =>
    by_cases hc : c = Byte.newline
    · subst hc
      rw [List.count_cons_self, List.cons_append, fromLine, if_pos rfl]
      exact ih
    · rw [List.count_cons_of_ne (hc), List.cons_append, fromLine, if_neg hc]
      exact ih

-- Line `n` begins behind `n` newlines.
theorem fromLine_count (rest : Text) :
    fromLine (front.count Byte.newline) (front ++ rest) = rest := by
  rcases hfront with rfl | ⟨a, rfl⟩
  · rw [List.count_nil, List.nil_append, fromLine]
  · rw [List.count_append, List.count_singleton_self, List.append_assoc, List.singleton_append,
      fromLine_append_newline]

theorem line_count (rest : Text) :
    line (front ++ rest) (front.count Byte.newline) =
      withoutReturn (rest.takeWhile (· ≠ Byte.newline)) := by
  unfold line
  rw [if_neg (by omega), Int.toNat_natCast, fromLine_count hfront]

-- The column is clamped to the line as it is shown.
theorem offset_count (rest : Text) (column : Nat) :
    offset (front ++ rest) ⟨front.count Byte.newline, column⟩ =
      front.length + min column (withoutReturn (rest.takeWhile (· ≠ Byte.newline))).length := by
  have hcount : front.count Byte.newline < lineCount (front ++ rest) := by
    rw [lineCount_eq, List.count_append]
    omega
  unfold offset
  simp only [Int.toNat_natCast, lineStart_count hfront, line_count hfront]
  rw [if_neg (by omega), if_neg (by omega)]

theorem take_offset_count (rest : Text) (column : Int) :
    ((front ++ rest).take (offset (front ++ rest) ⟨front.count Byte.newline, column⟩)) =
      front ++ (withoutReturn (rest.takeWhile (· ≠ Byte.newline))).take column.toNat := by
  have hcolumn : offset (front ++ rest) ⟨front.count Byte.newline, column⟩ =
      offset (front ++ rest) ⟨front.count Byte.newline, column.toNat⟩ := rfl
  have hline : withoutReturn (rest.takeWhile (· ≠ Byte.newline)) <+: rest :=
    (isPrefix_withoutReturn _).trans (List.takeWhile_prefix _)
  rw [hcolumn, offset_count hfront, List.take_length_add_append, ← List.take_take,
    ← List.prefix_iff_eq_take.mp hline]

omit hfront in
theorem before_eq_take (text : Text) (pos : Position) :
    before text pos = text.take (offset text pos) := by
  have hzero : offset text ⟨0, 0⟩ = 0 := offset_count (.inl rfl) text 0
  rw [before, slice, hzero, List.drop_zero, Nat.sub_zero]

-- What stands before a place of the line is all in front of it and the line up to there.
theorem before_count (rest : Text) (column : Int) :
    before (front ++ rest) ⟨front.count Byte.newline, column⟩ =
      front ++ (withoutReturn (rest.takeWhile (· ≠ Byte.newline))).take column.toNat := by
  rw [before_eq_take, take_offset_count hfront]

-- The start of the line, up to a column.
theorem slice_count (rest : Text) (column : Int) :
    slice (front ++ rest)
        ⟨⟨front.count Byte.newline, 0⟩, ⟨front.count Byte.newline, column⟩⟩ =
      (withoutReturn (rest.takeWhile (· ≠ Byte.newline))).take column.toNat := by
  have hstart : offset (front ++ rest) ⟨front.count Byte.newline, 0⟩ = front.length := by
    have hoffset := offset_count hfront rest 0
    rwa [Nat.zero_min, Nat.add_zero] at hoffset
  rw [slice]
  simp only
  rw [hstart, ← List.drop_take, take_offset_count hfront, List.drop_left]

omit hfront

/-! ## Positions -/

/-- What stands on its line before an offset. -/
def lineBefore (text : Text) (o : Nat) : Text :=
  ((text.take o).reverse.takeWhile (· ≠ Byte.newline)).reverse

/-- What stands on its line behind an offset, with the carriage return that may end it. -/
def lineAfter (text : Text) (o : Nat) : Text := (text.drop o).takeWhile (· ≠ Byte.newline)

/-- An offset is directly behind a carriage return that ends its line. -/
def AfterReturn (text : Text) (o : Nat) : Prop :=
  [Byte.carriageReturn] <:+ text.take o ∧
    (text.drop o = [] ∨ [Byte.newline] <+: text.drop o)

instance (text : Text) (o : Nat) : Decidable (AfterReturn text o) :=
  inferInstanceAs (Decidable (_ ∧ _))

def linesBefore (text : Text) (o : Nat) : Text :=
  ((text.take o).reverse.dropWhile (· ≠ Byte.newline)).reverse

-- An offset is told by the lines in front of its own and by what is in front of it there.
theorem linesBefore_append_lineBefore (text : Text) (o : Nat) :
    linesBefore text o ++ lineBefore text o = text.take o := by
  unfold linesBefore lineBefore
  rw [← List.reverse_append, List.takeWhile_append_dropWhile, List.reverse_reverse]

theorem newline_notMem_lineBefore (text : Text) (o : Nat) : Byte.newline ∉ lineBefore text o := by
  unfold lineBefore
  intro h
  simpa using List.mem_takeWhile_imp (List.mem_reverse.mp h)

-- All lines in front are ended.
theorem endsLine_linesBefore (text : Text) (o : Nat) : EndsLine (linesBefore text o) := by
  unfold linesBefore EndsLine
  cases h : (text.take o).reverse.dropWhile (· ≠ Byte.newline) with
  | nil => exact .inl rfl
  | cons b a =>
    have hb : b = Byte.newline := by
      have := List.head?_dropWhile_not (· ≠ Byte.newline) (text.take o).reverse
      rw [h] at this
      simpa using this
    exact .inr ⟨a.reverse, by rw [List.reverse_cons, hb]⟩

theorem count_linesBefore (text : Text) (o : Nat) :
    (linesBefore text o).count Byte.newline = (text.take o).count Byte.newline := by
  rw [← linesBefore_append_lineBefore, List.count_append,
    List.count_eq_zero.mpr (newline_notMem_lineBefore text o), Nat.add_zero]

theorem length_linesBefore {text : Text} {o : Nat} (ho : o ≤ text.length) :
    (linesBefore text o).length + (lineBefore text o).length = o := by
  rw [← List.length_append, linesBefore_append_lineBefore, List.length_take, Nat.min_eq_left ho]

-- The position of an offset has the newlines in front of it, and the bytes since the last.
theorem positionAt_natCast (text : Text) (o : Nat) :
    positionAt text o = ⟨(text.take o).count Byte.newline, (lineBefore text o).length⟩ := by
  simp [positionAt, lineBefore]

theorem count_take_le (text : Text) {a b : Nat} (hle : a ≤ b) :
    (text.take a).count Byte.newline ≤ (text.take b).count Byte.newline :=
  (List.take_prefix_take_left hle).sublist.count_le _

-- Bytes on the same line move an offset along that line.
theorem count_take_add {text : Text} {o n : Nat} (h : Byte.newline ∉ (text.drop o).take n) :
    (text.take (o + n)).count Byte.newline = (text.take o).count Byte.newline := by
  rw [List.take_add, List.count_append, List.count_eq_zero.mpr h, Nat.add_zero]

-- On one line the bytes add up.
theorem lineBefore_add {text : Text} {o n : Nat} (h : Byte.newline ∉ (text.drop o).take n) :
    lineBefore text (o + n) = lineBefore text o ++ (text.drop o).take n := by
  unfold lineBefore
  rw [List.take_add, List.reverse_append, takeWhile_append_of_notMem (mt List.mem_reverse.mp h),
    List.reverse_append, List.reverse_reverse]

theorem lineBefore_length_append {front : Text} (h : Byte.newline ∉ front) (rest : Text) :
    lineBefore (front ++ rest) front.length = front := by
  rw [lineBefore, List.take_left, takeWhile_of_notMem (mt List.mem_reverse.mp h),
    List.reverse_reverse]

theorem split_at_line (text : Text) (o : Nat) :
    linesBefore text o ++ (lineBefore text o ++ text.drop o) = text := by
  rw [← List.append_assoc, linesBefore_append_lineBefore, List.take_append_drop]

theorem takeWhile_lineBefore (text : Text) (o : Nat) :
    (lineBefore text o ++ text.drop o).takeWhile (· ≠ Byte.newline) =
      lineBefore text o ++ lineAfter text o :=
  takeWhile_append_of_notMem (newline_notMem_lineBefore text o) _

-- The line of an offset is what stands on both sides of it, without its carriage return.
theorem line_at (text : Text) (o : Nat) :
    line text ((text.take o).count Byte.newline : Nat) =
      withoutReturn (lineBefore text o ++ lineAfter text o) := by
  have h := line_count (endsLine_linesBefore text o) (lineBefore text o ++ text.drop o)
  rwa [split_at_line, takeWhile_lineBefore, count_linesBefore] at h

theorem offset_at (text : Text) (o column : Nat) :
    offset text ⟨(text.take o).count Byte.newline, column⟩ =
      (linesBefore text o).length +
        min column (withoutReturn (lineBefore text o ++ lineAfter text o)).length := by
  have h := offset_count (endsLine_linesBefore text o) (lineBefore text o ++ text.drop o) column
  rwa [split_at_line, takeWhile_lineBefore, count_linesBefore] at h

theorem slice_at (text : Text) (o : Nat) (column : Int) :
    slice text ⟨⟨(text.take o).count Byte.newline, 0⟩, ⟨(text.take o).count Byte.newline, column⟩⟩ =
      (line text ((text.take o).count Byte.newline : Nat)).take column.toNat := by
  have h := slice_count (endsLine_linesBefore text o) (lineBefore text o ++ text.drop o) column
  rwa [split_at_line, takeWhile_lineBefore, count_linesBefore, ← line_at] at h

-- A carriage return is one byte.
theorem le_length_withoutReturn (l : Text) : l.length ≤ (withoutReturn l).length + 1 := by
  by_cases h : [Byte.carriageReturn] <:+ l
  · obtain ⟨a, rfl⟩ := h
    rw [withoutReturn_append_return, List.length_append, List.length_singleton]
  · rw [withoutReturn_of_not_suffix h]
    omega

-- Nothing before an offset is given up with its line's carriage return, unless that is what stands
-- right before it.
theorem lineBefore_prefix_line {text : Text} {o : Nat} (h : ¬ AfterReturn text o) :
    lineBefore text o <+: withoutReturn (lineBefore text o ++ lineAfter text o) := by
  have hlen : (lineBefore text o).length ≤
      (withoutReturn (lineBefore text o ++ lineAfter text o)).length := by
    by_cases hafter : lineAfter text o = []
    -- The offset is at the end of its line, where a carriage return is excluded.
    · rw [hafter, List.append_nil]
      have hreturn : ¬ [Byte.carriageReturn] <:+ lineBefore text o := by
        intro hsuffix
        refine h ⟨?_, ?_⟩
        · rw [← linesBefore_append_lineBefore]
          exact hsuffix.trans (List.suffix_append _ _)
        · unfold lineAfter at hafter
          cases hdrop : text.drop o with
          | nil => exact .inl rfl
          | cons b rest =>
            rw [hdrop, List.takeWhile_cons] at hafter
            right
            split at hafter
            · exact absurd hafter (List.cons_ne_nil _ _)
            · rename_i hb
              simp only [ne_eq, decide_not, Bool.not_eq_true', decide_eq_false_iff_not,
                Decidable.not_not] at hb
              rw [hb]
              exact List.prefix_append [Byte.newline] rest
      rw [withoutReturn_of_not_suffix hreturn]
    -- One byte at most is given up, and at least one stands behind the offset.
    · have hpos := List.length_pos_iff.mpr hafter
      have hle := le_length_withoutReturn (lineBefore text o ++ lineAfter text o)
      rw [List.length_append] at hle
      omega
  exact List.prefix_of_prefix_length_le (List.prefix_append _ _) (isPrefix_withoutReturn _) hlen

theorem take_line {text : Text} {o : Nat} (h : ¬ AfterReturn text o) :
    (line text ((text.take o).count Byte.newline : Nat)).take (lineBefore text o).length =
      lineBefore text o := by
  rw [line_at]
  exact (List.prefix_iff_eq_take.mp (lineBefore_prefix_line h)).symm

/-- An offset goes to its position and back. -/
theorem offset_positionAt {text : Text} {o : Nat} (ho : o ≤ text.length)
    (h : ¬ AfterReturn text o) : offset text (positionAt text o) = o := by
  rw [positionAt_natCast, offset_at, Nat.min_eq_left (lineBefore_prefix_line h).length_le,
    length_linesBefore ho]

theorem take_add_one_of_getElem? {text : Text} {o : Nat} {b : UInt8} (h : text[o]? = some b) :
    text.take (o + 1) = text.take o ++ [b] := by
  rw [List.take_add_one, h, Option.toList_some]

-- No carriage return is given up behind any other byte.
theorem not_afterReturn_of_getElem? {text : Text} {o : Nat} {b : UInt8} (h : text[o]? = some b)
    (hb : b ≠ Byte.carriageReturn) : ¬ AfterReturn text (o + 1) := by
  rintro ⟨hsuffix, -⟩
  rw [take_add_one_of_getElem? h] at hsuffix
  exact hb (List.singleton_suffix_append_singleton_iff.mp hsuffix).symm

-- What stands before the position of an offset is what stands before the offset.
theorem before_positionAt {text : Text} {o : Nat} (ho : o ≤ text.length)
    (h : ¬ AfterReturn text o) : before text (positionAt text o) = text.take o := by
  rw [before_eq_take, offset_positionAt ho h]

end SvgAssist.Text
