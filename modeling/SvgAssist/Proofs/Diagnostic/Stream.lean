import SvgAssist.Diagnostic.Snippet
import SvgAssist.Proofs.Text.Lines

/-!
# Sources read line by line

A source file is read through a buffer, line after line. While the buffer has no whole line, more of
the source is read into it: behind the bytes it has, in front of which those of earlier lines are
given up, or in a larger buffer with the same bytes. A line that the largest buffer has no room for
ends the reading. The lines that come out are the lines that can be shown (`streamedLine?_eq`).
-/

namespace SvgAssist.Diagnostic

open Text

/-! ## One line after the other -/

/-- The first line of a source as it is shown, and what stands behind it. There is none in an empty
source, or if the line is too long. -/
def shownLine? (source : Text) : Option (Text × Text) :=
  let line := source.takeWhile (· ≠ Byte.newline)
  if source = [] ∨ maxLineSize ≤ line.length then none
  else some (withoutReturn line, source.drop (line.length + 1))

-- The first line goes up to the newline, whose carriage return is taken away.
theorem shownLine?_append_newline {line : Text} (h : Byte.newline ∉ line) (rest : Text) :
    shownLine? (line ++ Byte.newline :: rest) =
      if line.length < maxLineSize then some (withoutReturn line, rest) else none := by
  have hne : line ++ Byte.newline :: rest ≠ [] := by simp
  have hdrop : (line ++ Byte.newline :: rest).drop (line.length + 1) = rest := by
    rw [← List.drop_drop, List.drop_left, List.drop_one, List.tail_cons]
  unfold shownLine?
  rw [takeWhile_append_newline h]
  simp only [hne, false_or, hdrop]
  split_ifs <;> first | rfl | omega

theorem shownLine?_of_notMem {source : Text} (hne : source ≠ []) (h : Byte.newline ∉ source) :
    shownLine? source =
      if source.length < maxLineSize then some (withoutReturn source, []) else none := by
  unfold shownLine?
  rw [takeWhile_of_notMem h]
  simp only [hne, false_or, List.drop_eq_nil_of_le (Nat.le_succ source.length)]
  split_ifs <;> first | rfl | omega

-- A line is given up once its first bytes are too many, whatever follows.
theorem shownLine?_eq_none {front : Text} (h : Byte.newline ∉ front)
    (hlong : maxLineSize ≤ front.length) (rest : Text) : shownLine? (front ++ rest) = none := by
  apply if_pos
  right
  rw [takeWhile_append_of_notMem h, List.length_append]
  omega

theorem sourceLines_append_newline {line : Text} (h : Byte.newline ∉ line) (rest : Text) :
    sourceLines (line ++ Byte.newline :: rest) =
      if line.length < maxLineSize then withoutReturn line :: sourceLines rest else [] := by
  have hrest := lines_ne_nil rest
  have hlast : (line :: lines rest).getLast? = (lines rest).getLast? :=
    List.getLast?_cons_of_ne_nil hrest
  unfold sourceLines
  rw [lines_append_newline, lines_of_notMem h, List.singleton_append]
  simp only [hlast, List.dropLast_cons_of_ne_nil hrest, ← apply_ite (List.cons line),
    List.takeWhile_cons, decide_eq_true_eq]
  split_ifs <;> rfl

theorem sourceLines_of_notMem {source : Text} (hne : source ≠ []) (h : Byte.newline ∉ source) :
    sourceLines source =
      if source.length < maxLineSize then [withoutReturn source] else [] := by
  unfold sourceLines
  rw [lines_of_notMem h]
  simp only [List.getLast?_singleton, Option.some.injEq, if_neg hne, List.takeWhile_cons,
    List.takeWhile_nil, decide_eq_true_eq]
  split_ifs <;> rfl

-- The lines that can be shown are the first one and those of what stands behind it.
theorem sourceLines_eq (source : Text) :
    sourceLines source =
      (shownLine? source).elim [] fun found => found.1 :: sourceLines found.2 := by
  by_cases hmem : Byte.newline ∈ source
  · obtain ⟨line, rest, rfl, hfree⟩ := List.eq_append_cons_of_mem hmem
    rw [sourceLines_append_newline hfree, shownLine?_append_newline hfree]
    split_ifs <;> rfl
  · by_cases hne : source = []
    · subst hne
      rfl
    · rw [sourceLines_of_notMem hne hmem, shownLine?_of_notMem hne hmem]
      split_ifs <;> rfl

/-! ## The buffer -/

def firstSize : Nat := 4096

def nextSize (size : Nat) : Nat := min (if size = 0 then firstSize else 2 * size) maxLineSize

-- A buffer that is not full size grows.
theorem lt_nextSize {size : Nat} (h : size < maxLineSize) : size < nextSize size := by
  unfold nextSize firstSize
  split_ifs <;> omega

/-- A source that is read through a buffer of `size` bytes. In the buffer, `held` stands behind
`start` bytes that earlier lines have used up; `unread` is what has not been read into it. The
source has `ended` once there was nothing left to read. -/
structure Stream where
  size : Nat
  start : Nat
  held : Text
  unread : Text
  ended : Bool
  fits : start + held.length ≤ size
  size_le : size ≤ maxLineSize
  drained : ended = true → unread = [] ∧ held.length < maxLineSize

namespace Stream

def ofSource (source : Text) : Stream where
  size := 0
  start := 0
  held := []
  unread := source
  ended := false
  fits := Nat.le_refl 0
  size_le := Nat.zero_le maxLineSize
  drained := nofun

def left (s : Stream) : Text := s.held ++ s.unread

/-- The line that the held bytes begin with, and how many of them it uses up. What no newline ends
is a line only at the end of the source. -/
def heldLine? (s : Stream) : Option (Nat × Text) :=
  let line := s.held.takeWhile (· ≠ Byte.newline)
  if line.length < s.held.length then some (line.length + 1, withoutReturn line)
  else if s.ended ∧ s.held ≠ [] then some (s.held.length, withoutReturn line)
  else none

theorem le_of_heldLine? {s : Stream} {n : Nat} {line : Text} (h : s.heldLine? = some (n, line)) :
    n ≤ s.held.length := by
  unfold heldLine? at h
  extract_lets shown at h
  split_ifs at h
  · cases h
    omega
  · cases h
    rfl

def pass (s : Stream) (n : Nat) (h : n ≤ s.held.length) : Stream :=
  { s with
    start := s.start + n
    held := s.held.drop n
    fits := by
      have := s.fits
      rw [List.length_drop]
      omega
    drained := fun hended => by
      have := s.drained hended
      rw [List.length_drop]
      exact ⟨this.1, by omega⟩ }

/-- The held bytes are moved to the front when there is no room behind them, or when more than half
of the buffer is used up. -/
def shift (s : Stream) : Stream :=
  if 0 < s.start ∧ (s.start + s.held.length = s.size ∨ s.size / 2 < s.start) then
    { s with
      start := 0
      fits := by
        have := s.fits
        omega }
  else s

def grow? (s : Stream) : Option { t : Stream // t.start + t.held.length < t.size } :=
  if hroom : s.start + s.held.length < s.size then some ⟨s, hroom⟩
  else if hlargest : maxLineSize ≤ s.size then none
  else
    have hlarger : s.held.length < nextSize s.size := by
      have := s.fits
      have := lt_nextSize (Nat.lt_of_not_le hlargest)
      omega
    some ⟨{ s with
      size := nextSize s.size
      start := 0
      fits := by omega
      size_le := Nat.min_le_right _ _ }, by
        show 0 + s.held.length < nextSize s.size
        omega⟩

def fill (s : Stream) (hroom : s.start + s.held.length < s.size) : Stream :=
  { s with
    held := s.held ++ s.unread.take (s.size - (s.start + s.held.length))
    unread := s.unread.drop (s.size - (s.start + s.held.length))
    ended := s.unread.isEmpty
    fits := by
      rw [List.length_append, List.length_take]
      omega
    drained := fun hended => by
      have hsize := s.size_le
      rw [List.isEmpty_iff.mp hended, List.take_nil, List.drop_nil, List.append_nil]
      exact ⟨rfl, by omega⟩ }

def more? (s : Stream) : Option Stream := s.shift.grow?.map fun t => t.1.fill t.2

def pending (s : Stream) : Nat := s.unread.length + if s.ended then 0 else 1

-- Shifting moves the held bytes but loses none.
theorem shift_cases (s : Stream) :
    s.shift.held = s.held ∧ s.shift.unread = s.unread ∧
      (s.shift.start + s.held.length = s.shift.size → s.shift.start = 0) := by
  have hfits := s.fits
  unfold shift
  split_ifs with h
  · exact ⟨rfl, rfl, fun _ => rfl⟩
  · refine ⟨rfl, rfl, fun hfull => ?_⟩
    by_contra hstart
    exact h ⟨Nat.pos_of_ne_zero hstart, .inl hfull⟩

-- Growing leaves what is held and what is unread as it is.
theorem grow?_eq_some {s : Stream} {t : { t : Stream // t.start + t.held.length < t.size }}
    (h : s.grow? = some t) : t.1.held = s.held ∧ t.1.unread = s.unread := by
  unfold grow? at h
  split_ifs at h
  · cases h
    exact ⟨rfl, rfl⟩
  · cases h
    exact ⟨rfl, rfl⟩

-- A buffer is given up when the held bytes fill it and it has its full size.
theorem grow?_eq_none {s : Stream} (h : s.grow? = none) :
    s.start + s.held.length = s.size ∧ s.size = maxLineSize := by
  have hfits := s.fits
  have hsize := s.size_le
  unfold grow? at h
  split_ifs at h
  omega

-- One more read moves bytes from the unread part to the held one, and there was room for some.
theorem exists_of_more? {s t : Stream} (h : s.more? = some t) :
    ∃ room, 0 < room ∧ t.held = s.held ++ s.unread.take room ∧ t.unread = s.unread.drop room ∧
      t.ended = s.unread.isEmpty := by
  obtain ⟨u, hu, rfl⟩ := Option.map_eq_some_iff.mp h
  obtain ⟨hshift, hshift', -⟩ := shift_cases s
  obtain ⟨hgrow, hgrow'⟩ := grow?_eq_some hu
  have hheld : s.held = u.1.held := (hgrow.trans hshift).symm
  have hunread : s.unread = u.1.unread := (hgrow'.trans hshift').symm
  rw [hheld, hunread]
  exact ⟨_, Nat.sub_pos_of_lt u.2, rfl, rfl, rfl⟩

-- Every read makes the measure smaller, which ends the search for a line.
theorem pending_more? {s t : Stream} (hended : ¬ s.ended) (h : s.more? = some t) :
    t.pending < s.pending := by
  obtain ⟨room, hroom, -, hunread, hdone⟩ := exists_of_more? h
  rw [pending, pending, hunread, hdone, if_neg hended, List.length_drop]
  cases s.unread with
  | nil => simp
  | cons b rest =>
    simp only [List.isEmpty_cons, List.length_cons]
    split_ifs <;> omega

-- Reading does not change what is left.
theorem left_more? {s t : Stream} (h : s.more? = some t) : t.left = s.left := by
  obtain ⟨room, -, hheld, hunread, -⟩ := exists_of_more? h
  rw [left, left, hheld, hunread, List.append_assoc, List.take_append_drop]

-- The buffer cannot hold more when it is as large as can be and none of it is used up.
theorem length_held_of_more? {s : Stream} (h : s.more? = none) : s.held.length = maxLineSize := by
  obtain ⟨hheld, -, hstart⟩ := shift_cases s
  obtain ⟨hfull, hsize⟩ := grow?_eq_none (Option.map_eq_none_iff.mp h)
  rw [hheld] at hfull
  have := hstart hfull
  omega

/-! ## Lines of a stream -/

def next? (s : Stream) : Option (Text × Stream) :=
  match h : s.heldLine? with
  | some (n, line) => some (line, s.pass n (le_of_heldLine? h))
  | none =>
    if hended : s.ended then none
    else
      match hmore : s.more? with
      | none => none
      | some t =>
        have := pending_more? hended hmore
        t.next?
termination_by s.pending

def nth? : Nat → Stream → Option Text
  | 0, s => s.next?.map (·.1)
  | n + 1, s => s.next?.bind fun found => nth? n found.2

-- Without a line there is no newline in the held bytes, and at the end of the source nothing is
-- held.
theorem heldLine?_eq_none {s : Stream} (h : s.heldLine? = none) :
    Byte.newline ∉ s.held ∧ (s.ended → s.held = []) := by
  unfold heldLine? at h
  extract_lets shown at h
  split_ifs at h with hshort hlast
  exact ⟨fun hmem => hshort (length_takeWhile_lt_iff.mpr hmem),
    fun hended => by_contra fun hne => hlast ⟨hended, hne⟩⟩

-- The line in the buffer is the first one of what is left.
theorem heldLine?_eq_some {s : Stream} {n : Nat} {line : Text} (h : s.heldLine? = some (n, line)) :
    shownLine? s.left = some (line, s.held.drop n ++ s.unread) := by
  have hfits := s.fits
  have hsize := s.size_le
  unfold heldLine? at h
  extract_lets shown at h
  split_ifs at h with hshort hlast
  · obtain ⟨rfl, rfl⟩ : shown.length + 1 = n ∧ withoutReturn shown = line := by simpa using h
    obtain ⟨front, rest, hheld, hfree⟩ :=
      List.eq_append_cons_of_mem (length_takeWhile_lt_iff.mp hshort)
    have hshown : shown = front := by
      show s.held.takeWhile _ = front
      rw [hheld, takeWhile_append_newline hfree]
    have hbehind : s.held.drop (front.length + 1) = rest := by
      rw [hheld, ← List.drop_drop, List.drop_left, List.drop_one, List.tail_cons]
    rw [hshown] at hshort ⊢
    rw [left, hbehind, hheld, List.append_assoc, List.cons_append,
      shownLine?_append_newline hfree, if_pos (by omega)]
  · obtain ⟨rfl, rfl⟩ : s.held.length = n ∧ withoutReturn shown = line := by simpa using h
    obtain ⟨hunread, hlt⟩ := s.drained hlast.1
    have hfree : Byte.newline ∉ s.held := mt length_takeWhile_lt_iff.mpr hshort
    have hshown : shown = s.held := takeWhile_of_notMem hfree
    rw [left, hunread, hshown, List.append_nil, List.append_nil, List.drop_length,
      shownLine?_of_notMem hlast.2 hfree, if_pos hlt]

-- Every read leaves less pending, and what is left of the source as it was.
theorem next?_eq (s : Stream) :
    s.next?.map (fun found => (found.1, found.2.left)) = shownLine? s.left := by
  induction hpending : s.pending using Nat.strong_induction_on generalizing s with
  | h p ih =>
    rw [next?]
    split
    next n line hline => exact (heldLine?_eq_some hline).symm
    next hline =>
      obtain ⟨hfree, hdone⟩ := heldLine?_eq_none hline
      split_ifs with hended
      · obtain ⟨hunread, -⟩ := s.drained hended
        rw [left, hdone hended, hunread]
        rfl
      split
      next hmore =>
        have hfull := length_held_of_more? hmore
        exact (shownLine?_eq_none hfree hfull.ge s.unread).symm
      next t hmore =>
        have hlt := pending_more? hended hmore
        rw [← left_more? hmore]
        exact ih t.pending (by omega) t rfl

-- By induction on the number of lines, with what each of them leaves behind.
theorem nth?_eq (n : Nat) (s : Stream) : s.nth? n = (sourceLines s.left)[n]? := by
  induction n generalizing s with
  | zero =>
    rw [nth?, sourceLines_eq, ← next?_eq]
    cases s.next? <;> rfl
  | succ n ih =>
    rw [nth?, sourceLines_eq, ← next?_eq]
    cases s.next? with
    | none => rfl
    | some found => exact ih found.2

end Stream

/-- A line of a source file, whose text `read` gives, read line by line. -/
def streamedLine? (read : Text → Option Text) (file : Text) (line : Int) : Option Text := do
  if line ≤ 0 || file = [] then none
  else
    let source ← read file
    (Stream.ofSource source).nth? (line.toNat - 1)

theorem streamedLine?_eq (read : Text → Option Text) (file : Text) (line : Int) :
    streamedLine? read file line = sourceLine? read file line := by
  unfold streamedLine? sourceLine?
  simp only [Stream.nth?_eq]
  rfl

end SvgAssist.Diagnostic
