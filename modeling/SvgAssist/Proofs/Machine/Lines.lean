import SvgAssist.Markup.Context
import SvgAssist.Proofs.Text.Ends
import SvgAssist.Proofs.Text.Index

/-!
# Positions in machine arithmetic

A machine keeps numbers in 64 bits, and a text can be read only inside of its bounds.
`Machine.slice` and the functions around it compute with such numbers what is computed with all
numbers elsewhere, and give up where an index is out of bounds. In a text of less than 2^31 bytes
they never do, and find the same (`slice_eq`, `classifyAt_eq`).
-/

namespace SvgAssist

def IsWord (n : Int) : Prop := -(2 ^ 63) ≤ n ∧ n < 2 ^ 63

instance (n : Int) : Decidable (IsWord n) := inferInstanceAs (Decidable (_ ∧ _))

/-- What is kept of a number: all of it, when it is a word. -/
structure Arithmetic where
  keep : Int → Int
  keep_word : ∀ n, IsWord n → keep n = n

namespace Arithmetic

def wrapping : Arithmetic := ⟨wrap64, fun _ h => Text.wrap64_of_bounds h.1 h.2⟩

def unbounded : Arithmetic := ⟨id, fun _ _ => rfl⟩

def add (m : Arithmetic) (a b : Int) : Int := m.keep (a + b)

def sub (m : Arithmetic) (a b : Int) : Int := m.keep (a - b)

variable (m : Arithmetic) {a b : Int}

-- As long as the result is a word, nothing wraps.
theorem add_eq (h : IsWord (a + b)) : m.add a b = a + b := m.keep_word _ h

theorem sub_eq (h : IsWord (a - b)) : m.sub a b = a - b := m.keep_word _ h

theorem add_natCast {a b : Nat} (h : a + b < 2 ^ 63) : m.add a b = ((a + b : Nat) : Int) := by
  rw [m.add_eq (by unfold IsWord; omega), Int.natCast_add]

-- No index falls below zero here.
theorem sub_natCast {a b : Nat} (hle : b ≤ a) (h : a < 2 ^ 63) :
    m.sub a b = ((a - b : Nat) : Int) := by
  rw [m.sub_eq (by unfold IsWord; omega), Int.natCast_sub hle]

theorem add_one {n : Nat} (h : n + 1 < 2 ^ 63) : m.add n 1 = ((n + 1 : Nat) : Int) :=
  m.add_natCast h

theorem sub_one {n : Nat} (hpos : 0 < n) (h : n < 2 ^ 63) : m.sub n 1 = ((n - 1 : Nat) : Int) :=
  m.sub_natCast hpos h

end Arithmetic

namespace Machine

/-! ## Reading in bounds -/

section

variable {α : Type}

def get? (xs : List α) (i : Int) : Option α := if i < 0 then none else xs[i.toNat]?

def cut? (xs : List α) (a b : Int) : Option (List α) :=
  if 0 ≤ a ∧ a ≤ b ∧ b ≤ xs.length then some ((xs.drop a.toNat).take (b - a).toNat) else none

-- An index that is a natural number is checked against the length only.
theorem get?_natCast (xs : List α) (i : Nat) : get? xs i = xs[i]? := by
  rw [get?, if_neg (by omega), Int.toNat_natCast]

-- A cut whose bounds are in order and inside is the one of the list.
theorem cut?_natCast {xs : List α} {a b : Nat} (hab : a ≤ b) (hb : b ≤ xs.length) :
    cut? xs a b = some ((xs.drop a).take (b - a)) := by
  have hsize : ((b : Int) - (a : Int)).toNat = b - a := by omega
  rw [cut?, if_pos (by omega), Int.toNat_natCast, hsize]

theorem cut?_front {xs : List α} {b : Nat} (hb : b ≤ xs.length) :
    cut? xs 0 b = some (xs.take b) := by
  simpa using cut?_natCast (Nat.zero_le b) hb

theorem cut?_tail {xs : List α} {a : Nat} (ha : a ≤ xs.length) :
    cut? xs a xs.length = some (xs.drop a) := by
  rw [cut?_natCast ha le_rfl, List.take_of_length_le (by rw [List.length_drop])]

variable {xs front rest : List α} {x : α} {i : Nat}

theorem get?_split (hxs : xs = front ++ x :: rest) (hi : front.length = i) :
    get? xs i = some x := by
  subst hxs hi
  rw [get?_natCast, List.getElem?_append_right le_rfl, Nat.sub_self, List.getElem?_cons_zero]

theorem cut?_split (hxs : xs = front ++ rest) (hi : front.length = i) :
    cut? xs i xs.length = some rest := by
  subst hxs hi
  rw [cut?_tail (by rw [List.length_append]; exact Nat.le_add_right _ _), List.drop_left]

end

variable (m : Arithmetic)

/-! ## Lines -/

/-- Where the lines behind a place begin, the place being `i`. -/
def startsFrom (i : Int) : Text → List Int
  | [] => []
  | b :: rest =>
    if b = Byte.newline then m.add i 1 :: startsFrom (m.add i 1) rest
    else startsFrom (m.add i 1) rest

def starts (text : Text) : List Int := 0 :: startsFrom m 0 text

def lineStop (text : Text) (n : Int) : Option Int :=
  if m.add n 1 < (starts m text).length then
    (get? (starts m text) (m.add n 1)).map (m.sub · 1)
  else some text.length

def line (text : Text) (n : Int) : Option Text :=
  if n < 0 ∨ ((starts m text).length : Int) ≤ n then some []
  else do
    let start ← get? (starts m text) n
    let stop ← lineStop m text n
    let bytes ← cut? text start stop
    some (Text.withoutReturn bytes)

def offset (text : Text) (pos : Position) : Option Int :=
  if pos.line < 0 then some 0
  else if ((starts m text).length : Int) ≤ pos.line then some text.length
  else do
    let shown ← line m text pos.line
    let start ← get? (starts m text) pos.line
    some (m.add start (min (max pos.column 0) shown.length))

def slice (text : Text) (range : Range) : Option Text := do
  let start ← offset m text range.start
  let stop ← offset m text range.stop
  if stop < start then some [] else cut? text start stop

def before (text : Text) (pos : Position) : Option Text := slice m text ⟨⟨0, 0⟩, pos⟩

/-! ## Characters -/

def charBefore (text : Text) (pos : Position) : Option Text :=
  if pos.column ≤ 0 then some []
  else do
    let window ← slice m text ⟨⟨pos.line, max (m.sub pos.column Text.maxCharWidth) 0⟩, pos⟩
    cut? window (m.sub window.length (Text.lastCharWidth window)) window.length

def charAfter (text : Text) (pos : Position) : Option Text := do
  let window ← slice m text ⟨pos, ⟨pos.line, m.add pos.column Text.maxCharWidth⟩⟩
  cut? window 0 ((Text.firstChar? window).elim 0 (·.width))

def classifyAt (text : Text) (pos : Position) : Option Markup.Context := do
  let prev ← charBefore m text pos
  let next ← charAfter m text pos
  some (Markup.classify prev next)

end Machine

/-! ## What all numbers tell -/

namespace Text

-- There are no more lines than bytes and one.
theorem lineCount_le (text : Text) : lineCount text ≤ text.length + 1 := by
  rw [lineCount_eq]
  exact Nat.succ_le_succ List.count_le_length

/-- The end of a line is in the text. -/
theorem line_end_le {text : Text} {n : Nat} (h : n < lineCount text) :
    lineStart text n + (line text n).length ≤ text.length := by
  have hoffset := offset_le_length text ⟨n, (line text n).length⟩
  rw [offset, if_neg (by simp), if_neg (by simpa using h)] at hoffset
  simpa using hoffset

theorem length_line_le (text : Text) (n : Int) : (line text n).length ≤ text.length := by
  by_cases h : n < 0 ∨ lineCount text ≤ n
  · rw [line_outside h]
    exact Nat.zero_le _
  · obtain ⟨k, rfl⟩ := Int.eq_ofNat_of_zero_le (show 0 ≤ n by omega)
    have hend := line_end_le (show k < lineCount text by omega)
    omega

-- What stands behind the end of a line is nothing, up to whatever column.
theorem slice_behind_line {text : Text} {pos : Position} (column : Int)
    (h : (line text pos.line).length ≤ pos.column) : slice text ⟨pos, ⟨pos.line, column⟩⟩ = [] := by
  have hle : offset text ⟨pos.line, column⟩ ≤ offset text pos := by
    unfold offset
    simp only
    split_ifs <;> omega
  rw [slice]
  simp only [Nat.sub_eq_zero_of_le hle, List.take_zero]

theorem length_slice_le (text : Text) (range : Range) :
    (slice text range).length ≤ text.length := by
  rw [slice, List.length_take, List.length_drop]
  omega

end Text

/-! ## What the machine finds -/

namespace Machine

variable (m : Arithmetic)

-- By induction on the text; the starts stay below its end and so are words.
theorem startsFrom_eq {text : Text} {i : Nat} (h : i + text.length < 2 ^ 63) :
    startsFrom m i text = (Text.startsFrom i text).map fun n : Nat => (n : Int) := by
  induction text generalizing i with
  | nil => rfl
  | cons b rest ih =>
    rw [List.length_cons] at h
    have hnext : m.add i 1 = ((i + 1 : Nat) : Int) := m.add_one (by omega)
    rw [startsFrom, Text.startsFrom, hnext, ih (by omega)]
    split_ifs
    · rw [List.map_cons]
    · rfl

variable {text : Text} (hsize : text.length < 2 ^ 31)
include hsize

theorem starts_eq : starts m text = (Text.lineStarts text).map fun n : Nat => (n : Int) := by
  have hstarts := startsFrom_eq m (show 0 + text.length < 2 ^ 63 by omega)
  rw [Int.natCast_zero] at hstarts
  rw [starts, hstarts, Text.lineStarts, List.map_cons, Int.natCast_zero]

theorem length_starts : (starts m text).length = Text.lineCount text := by
  rw [starts_eq m hsize, List.length_map, Text.length_lineStarts]

-- The index of a line is in bounds as long as there is such a line.
theorem get?_starts {n : Nat} (h : n < Text.lineCount text) :
    get? (starts m text) n = some (Text.lineStart text n : Int) := by
  rw [get?_natCast, starts_eq m hsize, List.getElem?_map, Text.getElem?_lineStarts_of_lt h,
    Option.map_some]

-- Only the last line has no next one, whose start would be out of bounds.
theorem lineStop_eq {n : Nat} (h : n < Text.lineCount text) :
    lineStop m text n = some (Text.lineStop text n : Int) := by
  have hcount := Text.lineCount_le text
  have hnext : m.add n 1 = ((n + 1 : Nat) : Int) := m.add_one (by omega)
  rw [lineStop, length_starts m hsize, hnext, get?_natCast, starts_eq m hsize, List.getElem?_map,
    Text.lineStop, ← Text.length_lineStarts]
  split_ifs with hmore
  · have hlt : n + 1 < (Text.lineStarts text).length := by omega
    have hmem : (Text.lineStarts text)[n + 1] ∈ Text.startsFrom 0 text := List.getElem_mem _
    have hbounds := Text.bounds_of_mem_startsFrom hmem
    rw [List.getElem?_eq_getElem hlt]
    exact congrArg some (m.sub_one hbounds.1 (by omega))
  · rw [List.getElem?_eq_none (by omega)]
    rfl

-- A line without the text is tested for before any index is used.
theorem line_eq (n : Int) : line m text n = some (Text.line text n) := by
  rw [line, length_starts m hsize]
  split_ifs with hout
  · rw [Text.line_outside hout]
  obtain ⟨k, rfl⟩ := Int.eq_ofNat_of_zero_le (show 0 ≤ n by omega)
  obtain ⟨front, rest, rfl, hfront, rfl⟩ :=
    Text.exists_split_at_line (show k < Text.lineCount text by omega)
  have hend := (List.takeWhile_prefix (l := rest) (· ≠ Byte.newline)).length_le
  rw [get?_starts m hsize (by omega), lineStop_eq m hsize (by omega), Text.lineStop_count,
    Text.lineStart_count hfront, Text.line_count hfront]
  simp only [Option.bind_eq_bind, Option.bind_some]
  rw [cut?_natCast (Nat.le_add_right _ _) (by rw [List.length_append]; omega), List.drop_left,
    Nat.add_sub_cancel_left, Option.bind_some,
    ← List.prefix_iff_eq_take.mp (List.takeWhile_prefix _)]

/-! ## Offsets -/

theorem offset_eq (pos : Position) : offset m text pos = some (Text.offset text pos : Int) := by
  rw [offset, Text.offset, length_starts m hsize]
  split_ifs with hlow hhigh
  · rfl
  · rfl
  obtain ⟨k, hk⟩ := Int.eq_ofNat_of_zero_le (show 0 ≤ pos.line by omega)
  have hend := Text.line_end_le (show k < Text.lineCount text by omega)
  rw [line_eq m hsize, hk, get?_starts m hsize (by omega), Int.toNat_natCast]
  simp only [Option.bind_eq_bind, Option.bind_some]
  rw [m.add_eq (by unfold IsWord; omega)]
  exact congrArg some (by omega)

theorem slice_eq (range : Range) : slice m text range = some (Text.slice text range) := by
  have hstart := Text.offset_le_length text range.start
  have hstop := Text.offset_le_length text range.stop
  rw [slice, offset_eq m hsize, offset_eq m hsize]
  simp only [Option.bind_eq_bind, Option.bind_some]
  split_ifs with hcross
  · rw [Text.slice, Nat.sub_eq_zero_of_le (by omega), List.take_zero]
  · rw [cut?_natCast (by omega) hstop, Text.slice]

theorem before_eq (pos : Position) : before m text pos = some (Text.before text pos) :=
  slice_eq m hsize _

/-! ## The characters at a cursor -/

-- The window in front of the column is clamped at zero.
theorem charBefore_eq {pos : Position} (hcolumn : IsWord pos.column) :
    charBefore m text pos = some (Text.charBefore text pos) := by
  rw [charBefore, Text.charBefore]
  split_ifs with hzero
  · rfl
  have hback : m.sub pos.column Text.maxCharWidth = pos.column - Text.maxCharWidth := by
    refine m.sub_eq ?_
    unfold IsWord Text.maxCharWidth at *
    omega
  rw [hback, slice_eq m hsize]
  set window := Text.slice text _ with hwindow
  have hshort := Text.length_slice_le text
    ⟨⟨pos.line, max (pos.column - Text.maxCharWidth) 0⟩, pos⟩
  rw [← hwindow] at hshort
  have hwidth := (Text.lastCharWidth_le window).1
  have hcut : m.sub window.length (Text.lastCharWidth window) =
      ((window.length - Text.lastCharWidth window : Nat) : Int) :=
    m.sub_natCast hwidth (by omega)
  simp only [Option.bind_eq_bind, Option.bind_some]
  rw [hcut, cut?_tail (Nat.sub_le _ _), Text.lastCharBytes]

-- Where the end of the window wraps around, the column is behind all lines, so that there is
-- nothing in the window either way.
theorem window_after_eq {pos : Position} (hcolumn : IsWord pos.column) :
    Text.slice text ⟨pos, ⟨pos.line, m.add pos.column Text.maxCharWidth⟩⟩ =
      Text.slice text ⟨pos, ⟨pos.line, wrap64 (pos.column + Text.maxCharWidth)⟩⟩ := by
  by_cases hword : IsWord (pos.column + Text.maxCharWidth)
  · rw [m.add_eq hword, Text.wrap64_of_bounds hword.1 hword.2]
  · have hline := Text.length_line_le text pos.line
    have hfar : ((Text.line text pos.line).length : Int) ≤ pos.column := by
      unfold IsWord Text.maxCharWidth at *
      omega
    rw [Text.slice_behind_line _ hfar, Text.slice_behind_line _ hfar]

-- The first character is cut out of the window, which has at least its width.
theorem charAfter_eq {pos : Position} (hcolumn : IsWord pos.column) :
    charAfter m text pos = some (Text.charAfter text pos) := by
  rw [charAfter, slice_eq m hsize, window_after_eq m hsize hcolumn, Text.charAfter]
  simp only [Option.bind_eq_bind, Option.bind_some]
  set window := Text.slice text _ with hwindow
  rw [Text.firstCharBytes]
  cases window with
  | nil => rfl
  | cons b rest =>
    have hwidth := (Text.width_decodeHead b rest).2
    exact cut?_front (by rw [List.length_cons]; omega)

theorem classifyAt_eq {pos : Position} (hcolumn : IsWord pos.column) :
    classifyAt m text pos = some (Markup.classifyAt text pos) := by
  rw [classifyAt, charBefore_eq m hsize hcolumn, charAfter_eq m hsize hcolumn]
  rfl

end Machine

end SvgAssist
