import SvgAssist.Proofs.Text.Columns
import SvgAssist.Proofs.Text.Positions

/-!
# The window around a cursor

The characters on both sides of a cursor are looked for in a few bytes of its line
(`charBefore_on_line`, `charAfter_on_line`). What is cut off in front leaves the last character of a
text as it is, unless it is cut itself (`lastCharBytes_drop_eq_iff`).
-/

namespace SvgAssist.Text

/-! ## The last character -/

-- The first of some numbers in order that is small and good, by a larger bound on what is small.
theorem find?_of_le {good : Nat → Bool} {limit size : Nat} (hle : limit ≤ size) {ns : List Nat}
    (horder : ns.Pairwise (· < ·)) :
    ns.find? (fun n => n ≤ limit && good n) =
      (ns.find? fun n => n ≤ size && good n).filter (· ≤ limit) := by
  induction ns with
  | nil => rfl
  | cons m ns ih =>
    obtain ⟨hfirst, horder⟩ := List.pairwise_cons.mp horder
    rw [List.find?_cons, List.find?_cons, ih horder]
    cases good m with
    | false => simp only [Bool.and_false]
    | true =>
      by_cases hlimit : m ≤ limit
      · simp [hlimit, hlimit.trans hle, Option.filter_some]
      by_cases hsize : m ≤ size
      -- All that follow are larger than `m`, which is too large already.
      · have hnone (n : Nat) (hn : ns.find? (fun n => n ≤ size && good n) = some n) :
            ¬ n ≤ limit := by
          have := hfirst n (List.mem_of_find?_eq_some hn)
          omega
        have hrest : (ns.find? fun n => n ≤ size && good n).filter (· ≤ limit) = none :=
          Option.filter_eq_none_iff.mpr (by simpa using hnone)
        simp [hlimit, hsize, Option.filter_some, hrest]
      · simp [hlimit, hsize]

/-- The last character takes the last byte, or as many of them as are read from a leading byte on.
-/
theorem lastCharWidth_cases {text : Text} (hne : text ≠ []) :
    lastCharWidth text = 1 ∨ ∃ n ∈ [2, 3, 4], n ≤ text.length ∧ lastCharWidth text = n ∧
      ∃ b rest, text.drop (text.length - n) = b :: rest ∧ isLead b ∧
        (decodeHead b rest).width = n := by
  unfold lastCharWidth
  simp only
  split
  · rename_i hlast
    exact absurd (List.getLast?_eq_none_iff.mp hlast) hne
  split_ifs
  · exact .inl rfl
  split
  · exact .inl rfl
  rename_i n hn
  have hfound := List.find?_some hn
  simp only [Bool.and_eq_true, decide_eq_true_eq] at hfound
  obtain ⟨hsize, hlead⟩ := hfound
  cases hdrop : text.drop (text.length - n) with
  | nil => exact .inl rfl
  | cons b rest =>
    rw [hdrop, List.head?_cons, Option.any_some] at hlead
    simp only [firstChar?]
    split_ifs with hwidth
    · exact .inr ⟨n, List.mem_of_find?_eq_some hn, hsize, rfl, b, rest, hdrop, hlead, hwidth⟩
    · exact .inl rfl

theorem lastCharWidth_bounds {text : Text} (hne : text ≠ []) :
    0 < lastCharWidth text ∧ lastCharWidth text ≤ text.length ∧
      lastCharWidth text ≤ maxCharWidth := by
  have hpos := List.length_pos_iff.mpr hne
  have hmax : maxCharWidth = 4 := rfl
  rcases lastCharWidth_cases hne with hone | ⟨n, hn, hsize, hwidth, -⟩
  · omega
  · simp only [List.mem_cons, List.not_mem_nil, or_false] at hn
    omega

-- No more bytes are looked at than the widest character has.
theorem lastCharWidth_le (text : Text) :
    lastCharWidth text ≤ text.length ∧ lastCharWidth text ≤ maxCharWidth := by
  by_cases hne : text = []
  · subst hne
    decide
  · exact (lastCharWidth_bounds hne).2

-- The last bytes of what is left of a text are those of the text.
theorem drop_drop_back {text : Text} {k n : Nat} (hk : k < text.length) (hn : n ≤ text.length - k) :
    (text.drop k).drop (text.length - k - n) = text.drop (text.length - n) := by
  rw [List.drop_drop]
  congr 1
  omega

-- A leading byte is found in what is left of a text where it is found in the text.
theorem find?_isLead_drop {text : Text} {k : Nat} (hk : k < text.length) :
    [2, 3, 4].find? (fun n => n ≤ text.length - k &&
        ((text.drop k).drop (text.length - k - n)).head?.any isLead) =
      ([2, 3, 4].find? fun n => n ≤ text.length &&
        (text.drop (text.length - n)).head?.any isLead).filter (· ≤ text.length - k) := by
  have hlead : (fun n => decide (n ≤ text.length - k) &&
        ((text.drop k).drop (text.length - k - n)).head?.any isLead) =
      fun n => decide (n ≤ text.length - k) && (text.drop (text.length - n)).head?.any isLead := by
    funext n
    by_cases hn : n ≤ text.length - k
    · rw [drop_drop_back hk hn]
    · simp only [hn, decide_false, Bool.false_and]
  rw [hlead, find?_of_le (Nat.sub_le text.length k) (by decide)]

/-- What is left of a text has the same last character, or the end of a character that is cut. -/
theorem lastCharWidth_drop {text : Text} {k : Nat} (hk : k < text.length) :
    lastCharWidth (text.drop k) =
      if lastCharWidth text ≤ text.length - k then lastCharWidth text else 1 := by
  unfold lastCharWidth
  simp only [List.length_drop, List.getLast?_drop, if_neg (Nat.not_le.mpr hk), find?_isLead_drop hk]
  cases text.getLast? with
  | none => exact (if_pos (Nat.zero_le _)).symm
  | some b =>
    by_cases hascii : b < 0x80
    · simp only [if_pos hascii, ite_self]
    simp only [if_neg hascii]
    cases [2, 3, 4].find? _ with
    | none => simp only [Option.filter_none, ite_self]
    | some n =>
      by_cases hn : n ≤ text.length - k
      · simp only [Option.filter_some, hn, decide_true, if_true, drop_drop_back hk hn]
        refine (if_pos ?_).symm
        split
        · split_ifs <;> omega
        · omega
      · simp only [Option.filter_some, hn, decide_false, Bool.false_eq_true, if_false]
        split
        · split_ifs <;> rfl
        · rw [ite_self]

theorem length_lastCharBytes (text : Text) : (lastCharBytes text).length = lastCharWidth text := by
  have hle := (lastCharWidth_le text).1
  rw [lastCharBytes, List.length_drop]
  omega

theorem lastCharBytes_nil : lastCharBytes [] = [] := rfl

-- Any text but the empty one has a last character.
theorem lastCharBytes_eq_nil_iff (text : Text) : lastCharBytes text = [] ↔ text = [] := by
  refine ⟨fun h => ?_, fun h => h ▸ lastCharBytes_nil⟩
  by_contra hne
  have hpos := (lastCharWidth_bounds hne).1
  rw [← length_lastCharBytes, h] at hpos
  exact absurd hpos (Nat.lt_irrefl 0)

/-- The last character is kept as long as all of it is. -/
theorem lastCharBytes_drop_eq_iff (text : Text) (k : Nat) :
    lastCharBytes (text.drop k) = lastCharBytes text ↔
      text = [] ∨ lastCharWidth text + k ≤ text.length := by
  by_cases hne : text = []
  · subst hne
    simp
  have hpos := (lastCharWidth_bounds hne).1
  rw [or_iff_right hne]
  by_cases hk : k < text.length
  · have hdrop := lastCharWidth_drop hk
    by_cases hwhole : lastCharWidth text + k ≤ text.length
    · rw [if_pos (by omega)] at hdrop
      refine iff_of_true ?_ hwhole
      rw [lastCharBytes, lastCharBytes, hdrop, List.length_drop, List.drop_drop]
      congr 1
      omega
    · rw [if_neg (by omega)] at hdrop
      refine iff_of_false (fun h => ?_) hwhole
      have hlen := congrArg List.length h
      rw [length_lastCharBytes, length_lastCharBytes, hdrop] at hlen
      omega
  · rw [List.drop_eq_nil_of_le (Nat.not_lt.mp hk), lastCharBytes_nil, eq_comm,
      lastCharBytes_eq_nil_iff]
    exact iff_of_false hne (by omega)

-- The last character ends with the last byte.
theorem getLast?_lastCharBytes (text : Text) : (lastCharBytes text).getLast? = text.getLast? := by
  by_cases hne : text = []
  · subst hne
    rfl
  have hpos := (lastCharWidth_bounds hne).1
  have hlen := List.length_pos_iff.mpr hne
  rw [lastCharBytes, List.getLast?_drop, if_neg (by omega)]

/-! ## The window -/

section

variable {text : Text} {pos : Position} (hlow : 0 ≤ pos.line) (hline : pos.line < lineCount text)
include hlow hline

/-- What stands between two columns of a line. -/
theorem slice_on_line (a b : Int) :
    slice text ⟨⟨pos.line, a⟩, ⟨pos.line, b⟩⟩ =
      ((line text pos.line).take b.toNat).drop a.toNat := by
  obtain ⟨front, rest, rfl, hfront, hcount⟩ :=
    exists_split_at_line (show pos.line.toNat < lineCount text by omega)
  have hnumber : pos.line = (front.count Byte.newline : Nat) := by omega
  rw [hnumber]
  set shown := line (front ++ rest) (front.count Byte.newline : Nat) with hshown
  rw [line_count hfront] at hshown
  have hstart : offset (front ++ rest) ⟨(front.count Byte.newline : Nat), a⟩ =
      front.length + min a.toNat shown.length := by
    rw [hshown]
    exact offset_count hfront rest a.toNat
  simp only [slice]
  rw [← List.drop_take, take_offset_count hfront, ← hshown, hstart, List.drop_length_add_append]
  by_cases hle : a.toNat ≤ shown.length
  · rw [Nat.min_eq_left hle]
  · have hshort := List.length_take_le' b.toNat shown
    rw [List.drop_eq_nil_of_le (by omega), List.drop_eq_nil_of_le (by omega)]

omit hlow hline in
-- Nothing stands on a line outside of the text.
theorem line_bounds_of_slice {a b : Int}
    (h : slice text ⟨⟨pos.line, a⟩, ⟨pos.line, b⟩⟩ ≠ []) :
    0 ≤ pos.line ∧ pos.line < lineCount text := by
  by_contra hout
  refine h ?_
  have hsame : offset text ⟨pos.line, a⟩ = offset text ⟨pos.line, b⟩ := by
    by_cases hbefore : pos.line < 0
    · rw [offset, offset, if_pos hbefore, if_pos hbefore]
    · have hbehind : (lineCount text : Int) ≤ pos.line := by omega
      simp only [offset, if_neg hbefore, if_pos hbehind]
  rw [slice]
  simp only [hsame, Nat.sub_self, List.take_zero]

-- The character is read in the bytes of the line that the window has.
theorem charBefore_on_line :
    charBefore text pos = lastCharBytes
      (((line text pos.line).take pos.column.toNat).drop (pos.column.toNat - maxCharWidth)) := by
  have hslice := slice_on_line hlow hline (max (pos.column - maxCharWidth) 0) pos.column
  have hfirst : (max (pos.column - maxCharWidth) 0).toNat = pos.column.toNat - maxCharWidth := by
    omega
  rw [hfirst] at hslice
  rw [charBefore, hslice]
  split_ifs with hzero
  · have hnat : pos.column.toNat = 0 := by omega
    rw [hnat, List.take_zero, List.drop_nil]
    rfl
  · rfl

-- The end of the window is computed in 64 bits, and may come out in front of its start.
theorem charAfter_on_line :
    charAfter text pos = firstCharBytes
      (((line text pos.line).take (wrap64 (pos.column + maxCharWidth)).toNat).drop
        pos.column.toNat) := by
  rw [charAfter, slice_on_line hlow hline]

end

end SvgAssist.Text
