import SvgAssist.Server.Position
import SvgAssist.Proofs.Text.Columns

/-!
# All client positions of a text

The table of lines and columns that is made once for a text agrees with what is computed for each
offset on its own, inside of a character and behind a carriage return too (`entry_ofText`,
`locate_ofText`).
-/

namespace SvgAssist

namespace Text

/-! ## Characters that are cut off -/

-- A character of more bytes than `n` was read with the bytes that it asks for.
theorem of_lt_width {good : Bool} {d : Decoded} {n : Nat}
    (h : n + 1 < (if good then d else .bad).width) : good = true ∧ n + 1 < d.width := by
  cases good with
  | true => exact ⟨rfl, h⟩
  | false => exact absurd h (by simp [Decoded.bad])

-- A character that is cut off is none.
theorem decodeHead_take_short (b : UInt8) (rest : Text) {k : Nat}
    (hk : k + 1 < (decodeHead b rest).width) : decodeHead b (rest.take k) = .bad := by
  have hbad : ¬ k + 1 < Decoded.bad.width := by simp [Decoded.bad]
  unfold decodeHead at hk ⊢
  split_ifs at hk ⊢ with hone htwo hthree hfour
  · simp at hk
  · rcases rest with _ | ⟨x, rest⟩
    · exact absurd hk hbad
    · have hlt := (of_lt_width hk).2
      obtain rfl : k = 0 := by
        simp only at hlt
        omega
      rfl
  · rcases rest with _ | ⟨x, _ | ⟨y, rest⟩⟩
    · exact absurd hk hbad
    · exact absurd hk hbad
    · have hlt := (of_lt_width hk).2
      rcases k with _ | _ | k
      · rfl
      · rfl
      · simp only at hlt
        omega
  · rcases rest with _ | ⟨x, _ | ⟨y, _ | ⟨z, rest⟩⟩⟩
    · exact absurd hk hbad
    · exact absurd hk hbad
    · exact absurd hk hbad
    · have hlt := (of_lt_width hk).2
      rcases k with _ | _ | _ | k
      · rfl
      · rfl
      · rfl
      · simp only at hlt
        omega
  · exact absurd hk hbad

-- A byte that is no character takes one unit.
theorem units_cons_bad {b : UInt8} {rest : Text} (h : decodeHead b rest = .bad) :
    units (b :: rest) = 1 + units rest := by
  unfold units
  rw [chars_cons, h, List.map_cons, total_cons]
  rfl

theorem units_of_isTail {text : Text} (h : ∀ b ∈ text, isTail b) : units text = text.length := by
  induction text with
  | nil => exact units_nil
  | cons b rest ih =>
    rw [units_cons_bad (decodeHead_of_isTail (h b List.mem_cons_self) rest),
      ih fun x hx => h x (List.mem_cons_of_mem b hx), List.length_cons, Nat.add_comm]

-- The bytes of a character that is cut off stand for themselves.
theorem units_take_inside {b : UInt8} {rest : Text} {k : Nat}
    (hk : k < (decodeHead b rest).width) : units ((b :: rest).take k) = k := by
  cases k with
  | zero => exact units_nil
  | succ k =>
    have hwidth := width_decodeHead b rest
    have hinside : k ≤ (decodeHead b rest).width - 1 := by omega
    have htail : ∀ x ∈ rest.take k, isTail x := fun x hx =>
      isTail_of_mem_char ((List.take_prefix_take_left hinside).mem hx)
    rw [List.take_succ_cons, units_cons_bad (decodeHead_take_short b rest hk),
      units_of_isTail htail, List.length_take, Nat.min_eq_left (by omega), Nat.add_comm]

-- A cut behind the first character is one in the rest.
theorem units_take_behind (b : UInt8) (rest : Text) (k : Nat) :
    units ((b :: rest).take ((decodeHead b rest).width + k)) =
      (decodeHead b rest).units +
        units ((rest.drop ((decodeHead b rest).width - 1)).take k) := by
  have hwidth := width_decodeHead b rest
  set w := (decodeHead b rest).width with hw
  have hsum : w + k = w - 1 + k + 1 := by omega
  have hhead := decodeHead_take b rest (c := w - 1 + k) (by omega)
  unfold units
  rw [hsum, List.take_succ_cons, chars_cons, hhead, ← hw, List.map_cons, total_cons, List.drop_take,
    Nat.add_sub_cancel_left]

/-! ## Columns -/

theorem unitColumnsFrom_chars (seen : Nat) (found : List Nat) (text : Text) :
    unitColumnsFrom seen found (chars text) =
      found.reverse ++ (List.range (text.length + 1)).map fun k => seen + units (text.take k) := by
  induction text using chars_induction generalizing seen found with
  | nil => simp [chars_nil, unitColumnsFrom, units, total]
  | cons b rest ih =>
    have hwidth := width_decodeHead b rest
    set w := (decodeHead b rest).width with hw
    -- First the bytes of the character that stands there, then those behind it.
    have hlen : (b :: rest).length + 1 = w + ((rest.drop (w - 1)).length + 1) := by
      rw [List.length_cons, List.length_drop]
      omega
    have hinside : (List.range w).map (seen + ·) =
        (List.range w).map fun k => seen + units ((b :: rest).take k) :=
      List.map_congr_left fun k hk => by rw [units_take_inside (List.mem_range.mp hk)]
    have hbehind : (List.range ((rest.drop (w - 1)).length + 1)).map
          (fun k => seen + (decodeHead b rest).units + units ((rest.drop (w - 1)).take k)) =
        (List.range ((rest.drop (w - 1)).length + 1)).map
          (fun k => seen + units ((b :: rest).take (w + k))) :=
      List.map_congr_left fun k _ => by rw [units_take_behind, ← hw, Nat.add_assoc]
    have hrange (n : Nat) (f : Nat → Nat) : (List.range (w + n)).map f =
        (List.range w).map f ++ (List.range n).map fun k => f (w + k) := by
      rw [List.range_add, List.map_append, List.map_map]
      rfl
    rw [chars_cons, unitColumnsFrom, ih, List.foldl_flip_cons_eq_append, List.reverse_append,
      List.reverse_reverse, hlen, hrange, ← hw, hinside, hbehind, List.append_assoc]

-- The columns of a line are those of what is shown of it, and the end for the carriage return
-- behind.
theorem unitColumns_eq (line : Text) :
    unitColumns line =
      ((List.range ((withoutReturn line).length + 1)).map fun k =>
          units ((withoutReturn line).take k)) ++
        List.replicate (line.length - (withoutReturn line).length)
          (units (withoutReturn line)) := by
  simp only [unitColumns, unitColumnsFrom_chars, List.reverse_nil, List.nil_append, Nat.zero_add]

/-- The columns of a line: one for each of its bytes and one for its end. A carriage return that it
gives up has the column in front of it. -/
theorem getElem?_unitColumns {line : Text} {k : Nat} (hk : k ≤ line.length) :
    (unitColumns line)[k]? = some (units ((withoutReturn line).take k)) := by
  have hlen := (isPrefix_withoutReturn line).length_le
  rw [unitColumns_eq]
  by_cases hshown : k < (withoutReturn line).length + 1
  · rw [List.getElem?_append_left (by simpa using hshown), List.getElem?_map,
      List.getElem?_range hshown, Option.map_some]
  · rw [List.getElem?_append_right (by simpa using hshown), List.length_map, List.length_range,
      List.getElem?_replicate_of_lt (by omega), List.take_of_length_le (by omega)]

theorem length_unitColumns (line : Text) : (unitColumns line).length = line.length + 1 := by
  have hlen := (isPrefix_withoutReturn line).length_le
  rw [unitColumns_eq, List.length_append, List.length_map, List.length_range, List.length_replicate]
  omega

end Text

namespace Server

open Text

/-! ## The table -/

-- A list with one entry for each byte and one for the end of each line is as long as the text and
-- one.
theorem length_flatMap_zipIdx {α : Type} {g : Text × Nat → List α}
    (hg : ∀ l n, (g (l, n)).length = l.length + 1) (ls : List Text) (i : Nat) :
    ((ls.zipIdx i).flatMap g).length = total (ls.map (·.length + 1)) := by
  induction ls generalizing i with
  | nil => rfl
  | cons l ls ih =>
    rw [List.zipIdx_cons, List.flatMap_cons, List.length_append, hg, ih, List.map_cons, total_cons]

-- An entry of a list that has one for each byte and each end of some lines.
theorem getElem?_flatMap_zipIdx {α : Type} {g : Text × Nat → List α}
    (hg : ∀ l n, (g (l, n)).length = l.length + 1) {ls : List Text} {l : Text} {n k : Nat}
    (hl : ls[n]? = some l) (hk : k ≤ l.length) (i : Nat) :
    ((ls.zipIdx i).flatMap g)[total ((ls.take n).map (·.length + 1)) + k]? =
      (g (l, i + n))[k]? := by
  induction ls generalizing n i with
  | nil => simp at hl
  | cons first ls ih =>
    rw [List.zipIdx_cons, List.flatMap_cons]
    cases n with
    | zero =>
      obtain rfl : first = l := by simpa using hl
      have hzero : total (((first :: ls).take 0).map (·.length + 1)) = 0 := rfl
      rw [hzero, Nat.zero_add, List.getElem?_append_left (by rw [hg]; omega), Nat.add_zero]
    | succ n =>
      rw [List.getElem?_cons_succ] at hl
      have hrest := ih hl (i + 1)
      rw [List.take_succ_cons, List.map_cons, total_cons, List.getElem?_append_right
        (by rw [hg]; omega), hg, Nat.add_assoc (first.length + 1), Nat.add_sub_cancel_left, hrest,
        Nat.add_assoc, Nat.add_comm 1]

/-- The table has the line and the column of every offset of its text. -/
theorem entry_ofText (text : Text) {o : Nat} (ho : o ≤ text.length) :
    (Places.ofText text).entry o = ((text.take o).count Byte.newline,
      units ((line text ((text.take o).count Byte.newline : Nat)).take
        (lineBefore text o).length)) := by
  let entries (l : Text × Nat) : List (Nat × Nat) :=
    (unitColumns l.1).map fun column => (l.2, column)
  have hentries (l : Text) (n : Nat) : (entries (l, n)).length = l.length + 1 := by
    rw [List.length_map, length_unitColumns]
  have htable : (Places.ofText text).entries = ((lines text).zipIdx.flatMap entries).toArray := rfl
  have hsize : (Places.ofText text).entries.size = text.length + 1 := by
    rw [htable, List.size_toArray, length_flatMap_zipIdx hentries, total_lines]
  -- The offset is told by its line and by what stands in front of it there.
  have hends := endsLine_linesBefore text o
  have hline := getElem?_lines hends (lineBefore text o ++ text.drop o)
  have hstart := lineStart_count hends (lineBefore text o ++ text.drop o)
  rw [split_at_line, takeWhile_lineBefore, count_linesBefore] at hline
  rw [split_at_line, count_linesBefore, lineStart] at hstart
  have hcolumn : (lineBefore text o).length ≤ (lineBefore text o ++ lineAfter text o).length := by
    rw [List.length_append]
    exact Nat.le_add_right _ _
  have hentry := getElem?_flatMap_zipIdx hentries hline hcolumn 0
  rw [hstart, length_linesBefore ho, Nat.zero_add, List.getElem?_map,
    getElem?_unitColumns hcolumn, ← line_at] at hentry
  rw [Places.entry, hsize, Nat.add_sub_cancel, Nat.min_eq_left ho, htable, List.getElem?_toArray,
    hentry]
  rfl

theorem line_ofText {text : Text} {o : Nat} (ho : o ≤ text.length) :
    (Places.ofText text).line o = (text.take o).count Byte.newline := by
  rw [Places.line, entry_ofText text ho]

/-- As the client counts them, these are the positions that are computed for each offset. -/
theorem locate_ofText (text : Text) {o : Nat} (ho : o ≤ text.length) :
    (Places.ofText text).locate o = clientPositionAt text o := by
  rw [Places.locate, entry_ofText text ho, clientPositionAt, toClient, positionAt_natCast]
  rfl

theorem span_ofText {text : Text} {a b : Nat} (ha : a ≤ text.length) (hb : b ≤ text.length) :
    (Places.ofText text).span a b = ⟨clientPositionAt text a, clientPositionAt text b⟩ := by
  rw [Places.span, locate_ofText text ha, locate_ofText text hb]

end Server

end SvgAssist
