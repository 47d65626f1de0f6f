import SvgAssist.Proofs.Text.Window
import Mathlib.Algebra.Group.Int.Defs
import Mathlib.Data.List.SplitLengths

/-!
# The ends of a text

A text falls into the bytes of its characters (`charBytes`). The first of them is read at the start
of the text, and the last is found from its end, whatever the bytes in front of it are
(`lastCharBytes_eq`). No character takes more bytes than the window around a cursor has, so that the
characters next to the cursor are found whole (`charBefore_inside`, `charAfter_inside`).
-/

namespace SvgAssist.Text

def charBytes (text : Text) : List Text := ((chars text).map (·.width)).splitLengths text

theorem charBytes_nil : charBytes [] = [] := by
  rw [charBytes, chars_nil, List.map_nil, List.splitLengths_nil]

-- What is left of a text behind its first character.
theorem drop_width (b : UInt8) (rest : Text) :
    (b :: rest).drop (decodeHead b rest).width = rest.drop ((decodeHead b rest).width - 1) := by
  obtain ⟨n, hn⟩ := Nat.exists_eq_add_of_le' (width_decodeHead b rest).1
  rw [hn, List.drop_succ_cons, Nat.add_sub_cancel]

theorem charBytes_cons (b : UInt8) (rest : Text) :
    charBytes (b :: rest) =
      (b :: rest).take (decodeHead b rest).width ::
        charBytes (rest.drop ((decodeHead b rest).width - 1)) := by
  rw [charBytes, chars_cons, List.map_cons, List.splitLengths_cons, drop_width]
  rfl

/-- No byte of a text is lost. -/
theorem flatten_charBytes (text : Text) : (charBytes text).flatten = text :=
  List.flatten_splitLengths _ _ (total_width_chars text).ge

theorem map_length_charBytes (text : Text) :
    (charBytes text).map List.length = (chars text).map (·.width) :=
  List.map_splitLengths_length _ _ (total_width_chars text).le

/-! ## The first character -/

theorem width_decodeHead_le (lead : UInt8) (rest : Text) :
    (decodeHead lead rest).width ≤ maxCharWidth := by
  unfold decodeHead
  split_ifs
  all_goals try split
  all_goals try split_ifs
  all_goals simp [Decoded.bad, maxCharWidth]

-- The first character is the head of all characters, the empty text having none.
theorem firstCharBytes_eq (text : Text) : firstCharBytes text = (charBytes text).head?.getD [] := by
  cases text with
  | nil =>
    rw [charBytes_nil]
    rfl
  | cons b rest =>
    rw [charBytes_cons]
    rfl

/-- The first character is read from as many bytes as a character can take. -/
theorem firstCharBytes_take (text : Text) :
    firstCharBytes (text.take maxCharWidth) = firstCharBytes text := by
  cases text with
  | nil => rfl
  | cons b rest =>
    have hwidth := width_decodeHead_le b rest
    have hhead : decodeHead b (rest.take 3) = decodeHead b rest := decodeHead_take b rest hwidth
    have htake : (b :: rest).take maxCharWidth = b :: rest.take 3 := rfl
    rw [htake, firstCharBytes, firstCharBytes, firstChar?, firstChar?, hhead, ← htake]
    simp only [List.take_take, Nat.min_eq_left hwidth]

/-! ## The last character -/

-- A character of more than one byte is found from its end.
theorem lastCharWidth_char {b : UInt8} {rest : Text} (hmore : rest ≠ [])
    (hwidth : (decodeHead b rest).width = rest.length + 1) :
    lastCharWidth (b :: rest) = rest.length + 1 := by
  have hlead : isLead b := by
    by_contra hb
    have htail : isTail b := by simpa [isLead] using hb
    rw [decodeHead_of_isTail htail] at hwidth
    exact hmore (List.eq_nil_of_length_eq_zero (Nat.succ.inj hwidth).symm)
  have htail (x : UInt8) (hx : x ∈ rest) : isLead x = false ∧ ¬ x < 0x80 := by
    have hread : x ∈ rest.take ((decodeHead b rest).width - 1) := by
      rwa [hwidth, Nat.add_sub_cancel, List.take_length]
    have hx := isTail_of_mem_char hread
    refine ⟨by simp [isLead, hx], fun hascii => ?_⟩
    simp [isTail, UInt8.not_le.mpr hascii] at hx
  have hmax := width_decodeHead_le b rest
  rw [hwidth] at hmax
  -- The bytes behind the first lead no character, so that it is the nearest one that does.
  rcases rest with _ | ⟨x, _ | ⟨y, _ | ⟨z, _ | ⟨_, _⟩⟩⟩⟩
  · exact absurd rfl hmore
  · obtain ⟨-, hx⟩ := htail x (by simp)
    simp_all [lastCharWidth, firstChar?]
  · obtain ⟨-, hy⟩ := htail y (by simp)
    simp_all [lastCharWidth, firstChar?]
  · obtain ⟨-, hz⟩ := htail z (by simp)
    simp_all [lastCharWidth, firstChar?]
  · simp only [maxCharWidth, List.length_cons] at hmax
    omega

-- No character is found from its end that begins in another one.
theorem lastCharWidth_drop_char {b : UInt8} {rest : Text}
    (hmore : rest.drop ((decodeHead b rest).width - 1) ≠ []) :
    lastCharWidth (rest.drop ((decodeHead b rest).width - 1)) = lastCharWidth (b :: rest) := by
  have hwidth := width_decodeHead b rest
  have hinside : (decodeHead b rest).width < (b :: rest).length := by
    have hpos := List.length_pos_iff.mpr hmore
    rw [List.length_drop] at hpos
    rw [List.length_cons]
    omega
  have hdrop := lastCharWidth_drop hinside
  rw [drop_width] at hdrop
  rw [hdrop, if_pos]
  obtain hone | ⟨n, -, hsize, hn, c, more, hat, hlead, hread⟩ :=
    lastCharWidth_cases (List.cons_ne_nil b rest)
  · omega
  rw [hn]
  by_contra hlong
  obtain ⟨p, hp⟩ : ∃ p, (b :: rest).length - n = p := ⟨_, rfl⟩
  rw [hp] at hat
  cases p with
  | zero =>
    obtain ⟨rfl, rfl⟩ := List.cons.inj (List.drop_zero.symm.trans hat)
    omega
  -- Its leading byte would be one that continues the first character.
  | succ j =>
    have hmem : c ∈ rest.take ((decodeHead b rest).width - 1) := by
      rw [List.drop_succ_cons] at hat
      have hc : rest[j]? = some c := by rw [← List.head?_drop, hat, List.head?_cons]
      refine List.mem_of_getElem? (i := j) ?_
      rw [List.getElem?_take_of_lt (by omega), hc]
    simp [isLead, isTail_of_mem_char hmem] at hlead

/-- The last of the characters that a text falls into is the one that is found from its end. -/
theorem getLast?_map_width_chars {text : Text} (hne : text ≠ []) :
    (chars text).getLast?.map (·.width) = some (lastCharWidth text) := by
  induction text using chars_induction with
  | nil => exact absurd rfl hne
  | cons b rest ih =>
    have hwidth := width_decodeHead b rest
    rw [chars_cons]
    by_cases hmore : rest.drop ((decodeHead b rest).width - 1) = []
    · rw [hmore, chars_nil, List.getLast?_singleton, Option.map_some]
      have hall := List.drop_eq_nil_iff.mp hmore
      have hsize : (decodeHead b rest).width = rest.length + 1 := by omega
      by_cases hrest : rest = []
      · subst hrest
        have hbounds := lastCharWidth_bounds hne
        rw [List.length_singleton] at hbounds
        rw [List.length_nil] at hsize
        exact congrArg some (by omega)
      · rw [lastCharWidth_char hrest hsize, hsize]
    · have hlast := ih hmore
      rw [List.getLast?_cons, Option.map_some]
      cases hchars : (chars (rest.drop ((decodeHead b rest).width - 1))).getLast? with
      | none =>
        rw [hchars] at hlast
        exact absurd hlast (by simp)
      | some d =>
        rw [hchars] at hlast
        rw [Option.getD_some, ← lastCharWidth_drop_char hmore]
        exact hlast

-- The last character, looked for from the end, is the last of all characters.
theorem lastCharBytes_eq (text : Text) :
    lastCharBytes text = (charBytes text).getLast?.getD [] := by
  by_cases hne : text = []
  · subst hne
    rw [charBytes_nil]
    rfl
  have hwidth := getLast?_map_width_chars hne
  rw [← List.getLast?_map, ← map_length_charBytes, List.getLast?_map] at hwidth
  obtain ⟨last, hlast, hsize⟩ := Option.map_eq_some_iff.mp hwidth
  obtain ⟨front, hfront⟩ := List.getLast?_eq_some_iff.mp hlast
  have hjoin := flatten_charBytes text
  rw [hfront, List.flatten_append, List.flatten_singleton] at hjoin
  rw [hlast, Option.getD_some, lastCharBytes, ← hsize]
  conv_lhs => rw [← hjoin]
  rw [List.length_append, Nat.add_sub_cancel, List.drop_left]

/-! ## Next to a cursor -/

theorem wrap64_of_bounds {n : Int} (hlow : -(2 ^ 63) ≤ n) (hhigh : n < 2 ^ 63) : wrap64 n = n := by
  unfold wrap64
  rw [Int.bmod_eq_of_le] <;> omega

section

variable {text : Text} {pos : Position} (hlow : 0 ≤ pos.line) (hline : pos.line < lineCount text)
  (hend : pos.column ≤ (line text pos.line).length)
include hlow hline hend

-- Inside of its line, the window in front of the column is what the line has there.
theorem charBefore_inside :
    charBefore text pos = lastCharBytes ((line text pos.line).take pos.column.toNat) := by
  rw [charBefore_on_line hlow hline, lastCharBytes_drop_eq_iff]
  have hlen := List.length_take_of_le (Int.toNat_le.mpr hend)
  have hwidth := lastCharWidth_le ((line text pos.line).take pos.column.toNat)
  omega

omit hend in
theorem charAfter_inside (hcolumn : 0 ≤ pos.column) (hword : pos.column + maxCharWidth < 2 ^ 63) :
    charAfter text pos = firstCharBytes ((line text pos.line).drop pos.column.toNat) := by
  have hstop : (wrap64 (pos.column + maxCharWidth)).toNat = pos.column.toNat + maxCharWidth := by
    rw [wrap64_of_bounds (by omega) hword]
    omega
  rw [charAfter_on_line hlow hline, hstop, ← List.take_drop, firstCharBytes_take]

end

end SvgAssist.Text
