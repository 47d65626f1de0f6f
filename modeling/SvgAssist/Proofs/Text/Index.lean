import SvgAssist.Proofs.Text.Positions

/-!
# The index of lines

An index of a text has the offsets at which its lines begin. A line is cut out between its own start
and that of the next one, and the line of an offset is found by a search for the last start that is
not behind it. This comes to the same as counting newlines (`indexedLine_eq`, `soughtPosition_eq`).
-/

namespace SvgAssist.Text

/-! ## Starts of lines -/

/-- Where the lines behind the first begin, in a text that stands at `i`. -/
def startsFrom (i : Nat) : Text → List Nat
  | [] => []
  | b :: rest =>
    if b = Byte.newline then (i + 1) :: startsFrom (i + 1) rest else startsFrom (i + 1) rest

def lineStarts (text : Text) : List Nat := 0 :: startsFrom 0 text

-- Where the lines behind two texts begin is told by each text on its own.
theorem startsFrom_append (i : Nat) (a b : Text) :
    startsFrom i (a ++ b) = startsFrom i a ++ startsFrom (i + a.length) b := by
  induction a generalizing i with
  | nil => rfl
  | cons c a ih =>
    have hsum : i + 1 + a.length = i + (a.length + 1) := by omega
    rw [List.cons_append, startsFrom, startsFrom, ih, List.length_cons, hsum]
    split_ifs
    · rw [List.cons_append]
    · rfl

-- There is one start for every newline.
theorem length_startsFrom (i : Nat) (text : Text) :
    (startsFrom i text).length = text.count Byte.newline := by
  induction text generalizing i with
  | nil => rfl
  | cons b rest ih =>
    rw [startsFrom]
    by_cases hb : b = Byte.newline
    · subst hb
      rw [if_pos rfl, List.length_cons, ih, List.count_cons_self]
    · rw [if_neg hb, ih, List.count_cons_of_ne hb]

theorem startsFrom_of_notMem {text : Text} (h : Byte.newline ∉ text) (i : Nat) :
    startsFrom i text = [] := by
  apply List.eq_nil_of_length_eq_zero
  rw [length_startsFrom, List.count_eq_zero.mpr h]

theorem length_lineStarts (text : Text) : (lineStarts text).length = lineCount text := by
  rw [lineStarts, List.length_cons, length_startsFrom, lineCount_eq]

-- A line behind a newline begins behind at least one byte.
theorem bounds_of_mem_startsFrom {s i : Nat} {text : Text} (h : s ∈ startsFrom i text) :
    i < s ∧ s ≤ i + text.length := by
  induction text generalizing i with
  | nil => exact absurd h List.not_mem_nil
  | cons b rest ih =>
    rw [startsFrom] at h
    rw [List.length_cons]
    split_ifs at h
    · rcases List.mem_cons.mp h with rfl | h
      · omega
      · have := ih h
        omega
    · have := ih h
      omega

-- The first line behind a place begins behind the next newline.
theorem startsFrom_cases (i : Nat) (rest : Text) :
    (Byte.newline ∉ rest ∧ startsFrom i rest = []) ∨
      ∃ more, startsFrom i rest =
        (i + (rest.takeWhile (· ≠ Byte.newline)).length + 1) :: more := by
  by_cases hmem : Byte.newline ∈ rest
  · right
    obtain ⟨shown, behind, rfl, hfree⟩ := List.eq_append_cons_of_mem hmem
    refine ⟨startsFrom (i + shown.length + 1) behind, ?_⟩
    rw [startsFrom_append, startsFrom_of_notMem hfree, List.nil_append, startsFrom, if_pos rfl,
      takeWhile_append_newline hfree]
  · exact .inl ⟨hmem, startsFrom_of_notMem hmem i⟩

section

variable {front : Text} (hfront : EndsLine front)
include hfront

theorem getElem?_lineStarts (rest : Text) :
    (lineStarts (front ++ rest))[front.count Byte.newline]? = some front.length := by
  rcases hfront with rfl | ⟨a, rfl⟩
  · rfl
  · have hbreak : startsFrom 0 (a ++ [Byte.newline] ++ rest) =
        startsFrom 0 a ++ (a.length + 1) :: startsFrom (a.length + 1) rest := by
      rw [List.append_assoc, startsFrom_append, Nat.zero_add, List.singleton_append, startsFrom,
        if_pos rfl]
    rw [lineStarts, hbreak, List.count_append, List.count_singleton_self, List.getElem?_cons_succ,
      ← length_startsFrom 0 a, List.getElem?_append_right le_rfl, Nat.sub_self,
      List.getElem?_cons_zero, List.length_append, List.length_singleton]

-- Behind a front that ends a line, the last start is where it ends.
theorem getLastD_startsFrom : (startsFrom 0 front).getLastD 0 = front.length := by
  rcases hfront with rfl | ⟨a, rfl⟩
  · rfl
  · rw [startsFrom_append, startsFrom, if_pos rfl, startsFrom, List.getLastD_concat, Nat.zero_add,
      List.length_append, List.length_singleton]

end

theorem getElem?_lineStarts_of_lt {text : Text} {n : Nat} (h : n < lineCount text) :
    (lineStarts text)[n]? = some (lineStart text n) := by
  obtain ⟨front, rest, rfl, hfront, rfl⟩ := exists_split_at_line h
  rw [getElem?_lineStarts hfront, lineStart_count hfront]

/-! ## Lines by the index -/

def lineStop (text : Text) (n : Nat) : Nat :=
  ((lineStarts text)[n + 1]?).elim text.length (· - 1)

def indexedLine (text : Text) (n : Int) : Text :=
  if n < 0 then []
  else
    match (lineStarts text)[n.toNat]? with
    | none => []
    | some start => withoutReturn ((text.drop start).take (lineStop text n.toNat - start))

theorem lineStop_count (front rest : Text) :
    lineStop (front ++ rest) (front.count Byte.newline) =
      front.length + (rest.takeWhile (· ≠ Byte.newline)).length := by
  have hnext : (lineStarts (front ++ rest))[front.count Byte.newline + 1]? =
      (startsFrom front.length rest)[0]? := by
    rw [lineStarts, List.getElem?_cons_succ, startsFrom_append, Nat.zero_add,
      ← length_startsFrom 0 front, List.getElem?_append_right le_rfl, Nat.sub_self]
  rw [lineStop, hnext]
  rcases startsFrom_cases front.length rest with ⟨hfree, hnone⟩ | ⟨more, hmore⟩
  · rw [hnone, takeWhile_of_notMem hfree, ← List.length_append]
    rfl
  · rw [hmore]
    rfl

-- Cutting at the stored starts gives the line that is found by counting.
theorem indexedLine_eq (text : Text) (n : Int) : indexedLine text n = line text n := by
  by_cases hlow : n < 0
  · rw [indexedLine, if_pos hlow, line_outside (.inl hlow)]
  obtain ⟨k, rfl⟩ := Int.eq_ofNat_of_zero_le (Int.not_lt.mp hlow)
  rw [indexedLine, if_neg hlow, Int.toNat_natCast]
  by_cases hk : k < lineCount text
  · obtain ⟨front, rest, rfl, hfront, rfl⟩ := exists_split_at_line hk
    rw [getElem?_lineStarts hfront]
    show withoutReturn _ = _
    rw [lineStop_count, List.drop_left, Nat.add_sub_cancel_left, line_count hfront,
      ← List.prefix_iff_eq_take.mp (List.takeWhile_prefix _)]
  · rw [List.getElem?_eq_none (by rw [length_lineStarts]; omega), line_outside (.inr (by omega))]

/-! ## Positions by the index -/

/-- The position of an offset on line `line`, which begins at `start`, or on one of the lines behind
it, which begin at the starts that are given. -/
def seek (offset line start : Nat) : List Nat → Position
  | [] => ⟨line, offset - start⟩
  | next :: more =>
    if next ≤ offset then seek offset (line + 1) next more else ⟨line, offset - start⟩

def soughtPosition (text : Text) (offset : Int) : Position :=
  seek (min offset.toNat text.length) 0 0 (startsFrom 0 text)

-- A search goes past all starts that are not behind the offset.
theorem seek_append {offset : Nat} {passed : List Nat} (h : ∀ s ∈ passed, s ≤ offset)
    (line start : Nat) (more : List Nat) :
    seek offset line start (passed ++ more) =
      seek offset (line + passed.length) (passed.getLastD start) more := by
  induction passed generalizing line start with
  | nil => rfl
  | cons next passed ih =>
    have hsum : line + 1 + passed.length = line + (passed.length + 1) := by omega
    rw [List.cons_append, seek, if_pos (h next List.mem_cons_self),
      ih fun s hs => h s (List.mem_cons_of_mem _ hs), List.getLastD_cons, List.length_cons, hsum]

-- A search ends on the line that the offset is on.
theorem seek_startsFrom {offset i : Nat} {rest : Text}
    (h : offset ≤ i + (rest.takeWhile (· ≠ Byte.newline)).length) (line start : Nat) :
    seek offset line start (startsFrom i rest) = ⟨line, offset - start⟩ := by
  rcases startsFrom_cases i rest with ⟨-, hnone⟩ | ⟨more, hmore⟩
  · rw [hnone, seek]
  · rw [hmore, seek, if_neg (by omega)]

-- Only the offset inside of the text counts.
theorem positionAt_clamped (text : Text) (offset : Int) :
    positionAt text offset = positionAt text (min offset.toNat text.length : Nat) := by
  have hsame : text.take offset.toNat = text.take (min offset.toNat text.length) := by
    apply List.take_eq_take_iff.mpr
    omega
  unfold positionAt
  rw [Int.toNat_natCast, hsame]

-- The starts of the lines in front of that of the offset are passed, and the next one is behind it.
theorem soughtPosition_eq (text : Text) (offset : Int) :
    soughtPosition text offset = positionAt text offset := by
  rw [soughtPosition, positionAt_clamped]
  set o := min offset.toNat text.length with ho
  have hsum := length_linesBefore (show o ≤ text.length by omega)
  have hstarts : startsFrom 0 text = startsFrom 0 (linesBefore text o) ++
      startsFrom (linesBefore text o).length (lineBefore text o ++ text.drop o) := by
    have h := startsFrom_append 0 (linesBefore text o) (lineBefore text o ++ text.drop o)
    rwa [split_at_line, Nat.zero_add] at h
  have hpassed (s : Nat) (hs : s ∈ startsFrom 0 (linesBefore text o)) : s ≤ o := by
    have := bounds_of_mem_startsFrom hs
    omega
  have hreach : o ≤ (linesBefore text o).length +
      ((lineBefore text o ++ text.drop o).takeWhile (· ≠ Byte.newline)).length := by
    rw [takeWhile_lineBefore, List.length_append]
    omega
  rw [hstarts, seek_append hpassed, seek_startsFrom hreach,
    getLastD_startsFrom (endsLine_linesBefore text o), length_startsFrom, count_linesBefore,
    positionAt_natCast]
  congr 1
  · omega
  · omega

end SvgAssist.Text
