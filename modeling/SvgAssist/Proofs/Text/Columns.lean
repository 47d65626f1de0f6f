import SvgAssist.Text.Units
import SvgAssist.Proofs.Text.Chars

/-!
# Columns

The UTF-16 column of a place between two characters of a line leads back to its byte column
(`byteColumn_units_take`). A `Caret` is a place of a text where a cursor can stand, and a position
that is `Between` two parts of a text tells what stands on both sides of it.
-/

namespace SvgAssist.Text

/-! ## UTF-16 columns -/

theorem units_pos (d : Decoded) : 0 < d.units := by
  unfold Decoded.units
  split_ifs <;> omega

-- Characters that stay below the goal are passed over as a whole.
theorem columnFrom_append (seen column : Nat) (ds more : List Decoded) :
    columnFrom (seen + total (ds.map (·.units)) : Nat) seen column (ds ++ more) =
      column + total (ds.map (·.width)) := by
  induction ds generalizing seen column with
  | nil =>
    cases more with
    | nil => rfl
    | cons d more => simp [columnFrom, total]
  | cons d ds ih =>
    -- The goal lies behind this character, since every character takes a unit.
    have hpos := units_pos d
    have hseen : seen + total ((d :: ds).map (·.units)) =
        seen + d.units + total (ds.map (·.units)) := by
      rw [List.map_cons, total_cons]
      omega
    rw [hseen, List.cons_append, columnFrom, if_neg (by omega), ih, List.map_cons, total_cons]
    omega

/-- The byte column of a place between two characters is found from its UTF-16 column. -/
theorem byteColumn_units_take {line : Text} {o : Nat} (h : Boundary line o) :
    byteColumn line (units (line.take o)) = o := by
  obtain ⟨k, rfl⟩ := h
  have hcolumn := columnFrom_append 0 0 ((chars line).take k) ((chars line).drop k)
  rw [List.take_append_drop, Nat.zero_add, Nat.zero_add] at hcolumn
  unfold byteColumn units
  rw [chars_take]
  exact hcolumn

theorem toNat_ofNat_le (n : Nat) : (Char.ofNat n).toNat ≤ n := by
  by_cases h : n.isValidChar
  · have hchar : Char.ofNat n = Char.ofNatAux n h := dif_pos h
    rw [hchar]
    exact le_refl n
  · have hchar : Char.ofNat n = ⟨0, .inl (by decide)⟩ := dif_neg h
    rw [hchar]
    exact Nat.zero_le n

theorem tailBits_lt (b : UInt8) : tailBits b < 64 := Nat.mod_lt _ (by omega)

-- A character takes one unit, or two outside of the first plane.
theorem units_le_two (d : Decoded) : d.units ≤ 2 := by
  unfold Decoded.units
  split_ifs <;> omega

theorem units_ofNat {n : Nat} (h : n ≤ 0xffff) (width : Nat) :
    (Decoded.mk (Char.ofNat n) width).units = 1 :=
  if_neg (Nat.not_lt.mpr ((toNat_ofNat_le n).trans h))

-- Only a character of four bytes takes two units.
theorem units_decodeHead_le_width (lead : UInt8) (rest : Text) :
    (decodeHead lead rest).units ≤ (decodeHead lead rest).width := by
  have hbad : Decoded.bad.units ≤ Decoded.bad.width := by decide
  have hlead := lead.toNat_lt
  unfold decodeHead
  split_ifs
  · exact (units_ofNat (by omega) 1).le
  · rcases rest with _ | ⟨b, rest⟩
    · exact hbad
    · simp only
      split_ifs
      · have := tailBits_lt b
        exact (units_ofNat (by omega) 2).trans_le (by simp)
      · exact hbad
  · rcases rest with _ | ⟨b, _ | ⟨c, rest⟩⟩
    · exact hbad
    · exact hbad
    · simp only
      split_ifs
      · have := tailBits_lt b
        have := tailBits_lt c
        exact (units_ofNat (by omega) 3).trans_le (by simp)
      · exact hbad
  · rcases rest with _ | ⟨b, _ | ⟨c, _ | ⟨d, rest⟩⟩⟩
    · exact hbad
    · exact hbad
    · exact hbad
    · simp only
      split_ifs
      · exact (units_le_two _).trans (by simp)
      · exact hbad
  · exact hbad

theorem units_nil : units [] = 0 := by
  rw [units, chars_nil]
  rfl

-- There are no more UTF-16 units than bytes.
theorem units_le_length (text : Text) : units text ≤ text.length := by
  unfold units
  induction text using chars_induction with
  | nil => simp [chars_nil, total]
  | cons b rest ih =>
    have hwidth := width_decodeHead b rest
    have hunits := units_decodeHead_le_width b rest
    rw [List.length_drop] at ih
    rw [chars_cons, List.map_cons, total_cons, List.length_cons]
    omega

-- An ASCII character takes one unit.
theorem units_append_ascii (front : Text) {tail : Text} (htail : ∀ b ∈ tail, b < 0x80) :
    units (front ++ tail) = units front + tail.length := by
  have hone (tail : Text) :
      total ((tail.map fun b => Decoded.mk (Char.ofNat b.toNat) 1).map (·.units)) =
        tail.length := by
    induction tail with
    | nil => rfl
    | cons b tail ih =>
      have hb := b.toNat_lt
      rw [List.map_cons, List.map_cons, total_cons, ih, units_ofNat (by omega), List.length_cons,
        Nat.add_comm]
  rw [units, chars_append_of_ascii front htail, List.map_append, total_append, hone, units]

theorem units_of_ascii {text : Text} (h : ∀ b ∈ text, b < 0x80) : units text = text.length := by
  have hunits := units_append_ascii [] h
  rwa [List.nil_append, units_nil, Nat.zero_add] at hunits

/-! ## Cursors -/

/-- A place for a cursor: between two characters of its line, and not behind the carriage return
that ends the line. -/
structure Caret (text : Text) (o : Nat) : Prop where
  le_length : o ≤ text.length
  boundary : Boundary (lineBefore text o ++ lineAfter text o) (lineBefore text o).length
  notAfterReturn : ¬ AfterReturn text o

variable {text : Text} {o : Nat}

theorem Caret.of_boundary (ho : o ≤ text.length) (hboundary : Boundary text o)
    (hafter : ¬ AfterReturn text o) : Caret text o :=
  ⟨ho, hboundary.line ho, hafter⟩

-- A cursor can stand in front of an ASCII character that ends no line, and behind one.
theorem Caret.before_ascii {b : UInt8} (h : text[o]? = some b) (hascii : b < 0x80)
    (hnewline : b ≠ Byte.newline) : Caret text o := by
  obtain ⟨hlen, rfl⟩ := List.getElem?_eq_some_iff.mp h
  refine .of_boundary hlen.le (.before_ascii h hascii) ?_
  rintro ⟨-, hend⟩
  rw [List.drop_eq_getElem_cons hlen] at hend
  rcases hend with hnil | hline
  · exact absurd hnil (List.cons_ne_nil _ _)
  · exact hnewline (List.cons_prefix_cons.mp hline).1.symm

theorem Caret.behind_ascii {b : UInt8} (h : text[o]? = some b) (hascii : b < 0x80)
    (hreturn : b ≠ Byte.carriageReturn) : Caret text (o + 1) :=
  .of_boundary (List.getElem?_eq_some_iff.mp h).1 (.behind_ascii h hascii)
    (not_afterReturn_of_getElem? h hreturn)

-- A cursor is between two characters of its line as it is shown, too.
theorem Caret.boundary_line (h : Caret text o) :
    Boundary (line text ((text.take o).count Byte.newline : Nat)) (lineBefore text o).length := by
  have htake := h.boundary.take (lineBefore_prefix_line h.notAfterReturn).length_le
  rwa [← List.prefix_iff_eq_take.mp (isPrefix_withoutReturn _), ← line_at] at htake

theorem Caret.byteColumn_line (h : Caret text o) :
    byteColumn (line text ((text.take o).count Byte.newline : Nat)) (units (lineBefore text o)) =
      (lineBefore text o).length := by
  have hcolumn := byteColumn_units_take h.boundary_line
  rwa [take_line h.notAfterReturn] at hcolumn

/-! ## The character before a cursor -/

-- The nearest leading byte is the last byte itself.
theorem lastCharBytes_append_ascii (l : Text) {b : UInt8} (hb : b < 0x80) :
    lastCharBytes (l ++ [b]) = [b] := by
  have hwidth : lastCharWidth (l ++ [b]) = 1 := by
    unfold lastCharWidth
    simp only [List.getLast?_append, List.getLast?_singleton, Option.some_or]
    rw [if_pos hb]
  rw [lastCharBytes, hwidth, List.length_append, List.length_singleton, Nat.add_sub_cancel,
    List.drop_left]

-- Behind an ASCII character that ends no line, that is the character before the cursor.
theorem charBefore_of_ascii {text : Text} {o : Nat} {b : UInt8} (hb : text[o]? = some b)
    (hascii : b < 0x80) (hnewline : b ≠ Byte.newline) (hreturn : b ≠ Byte.carriageReturn) :
    charBefore text (positionAt text (o + 1 : Nat)) = [b] := by
  have hlen : o < text.length := (List.getElem?_eq_some_iff.mp hb).1
  have htake := take_add_one_of_getElem? hb
  have hafter := not_afterReturn_of_getElem? hb hreturn
  have hoffset := offset_positionAt (o := o + 1) hlen hafter
  have hsum := length_linesBefore (o := o + 1) hlen
  have hpos : 0 < (lineBefore text (o + 1)).length := by
    unfold lineBefore
    rw [htake, List.reverse_concat, List.takeWhile_cons_of_pos (by simpa using hnewline)]
    simp
  rw [positionAt_natCast] at hoffset ⊢
  set column := (lineBefore text (o + 1)).length
  have hwidth : maxCharWidth = 4 := rfl
  -- The window of four bytes in front of the cursor begins on the line, and ends with `b`.
  have hwindow : max ((column : Int) - maxCharWidth) 0 = ((column - maxCharWidth : Nat) : Int) := by
    omega
  unfold charBefore slice
  simp only [hwindow]
  rw [if_neg (by omega), hoffset, offset_at, ← List.drop_take, htake,
    List.drop_append_of_le_length, lastCharBytes_append_ascii _ hascii]
  rw [List.length_take]
  omega

-- What the cursor has in front of it on its line are the last bytes in front of its offset.
theorem charBefore_suffix {text : Text} {o : Nat} (ho : o ≤ text.length)
    (hafter : ¬ AfterReturn text o) : charBefore text (positionAt text o) <:+ text.take o := by
  unfold charBefore
  split
  · exact List.nil_suffix
  · unfold lastCharBytes slice
    rw [offset_positionAt ho hafter, ← List.drop_take]
    exact (List.drop_suffix _ _).trans (List.drop_suffix _ _)

theorem firstCharBytes_take_ascii {b : UInt8} (hb : b < 0x80) (rest : Text) (n : Nat) :
    firstCharBytes ((b :: rest).take n) = [] ∨ firstCharBytes ((b :: rest).take n) = [b] := by
  cases n with
  | zero => exact .inl rfl
  | succ n =>
    right
    have hhead : decodeHead b (rest.take n) = ⟨Char.ofNat b.toNat, 1⟩ := if_pos hb
    rw [List.take_succ_cons, firstCharBytes, firstChar?, hhead]
    rfl

-- In front of an ASCII character, that is the character after the cursor. At the largest columns
-- the window in which it is looked for is empty.
theorem charAfter_of_ascii {text : Text} {o : Nat} {b : UInt8} (hb : text[o]? = some b)
    (hascii : b < 0x80) (hafter : ¬ AfterReturn text o) :
    charAfter text (positionAt text o) = [] ∨ charAfter text (positionAt text o) = [b] := by
  obtain ⟨hlen, rfl⟩ := List.getElem?_eq_some_iff.mp hb
  unfold charAfter slice
  rw [offset_positionAt hlen.le hafter]
  simp only
  rw [List.drop_eq_getElem_cons hlen]
  exact firstCharBytes_take_ascii hascii _ _

/-! ## Between two texts -/

/-- A position between two parts of a text. -/
structure Between (text : Text) (pos : Position) (front behind : Text) : Prop where
  text_eq : text = front ++ behind
  pos_eq : pos = positionAt text front.length

namespace Between

variable {text front behind : Text} {pos : Position} {b : UInt8}

theorem getElem?_front (h : Between text pos (front ++ [b]) behind) :
    text[front.length]? = some b := by
  rw [h.text_eq]
  simp

-- The byte in front is no carriage return.
theorem not_afterReturn (h : Between text pos (front ++ [b]) behind)
    (hreturn : b ≠ Byte.carriageReturn) : ¬ AfterReturn text (front ++ [b]).length := by
  rw [List.length_append]
  exact not_afterReturn_of_getElem? h.getElem?_front hreturn

theorem before_eq (h : Between text pos (front ++ [b]) behind)
    (hreturn : b ≠ Byte.carriageReturn) : before text pos = front ++ [b] := by
  have hle : (front ++ [b]).length ≤ text.length := by
    rw [h.text_eq]
    exact (List.prefix_append (front ++ [b]) behind).length_le
  rw [h.pos_eq, before_positionAt hle (h.not_afterReturn hreturn), h.text_eq, List.take_left]

theorem charBefore_eq (h : Between text pos (front ++ [b]) behind) (hascii : b < 0x80)
    (hnewline : b ≠ Byte.newline) (hreturn : b ≠ Byte.carriageReturn) :
    charBefore text pos = [b] := by
  rw [h.pos_eq, List.length_append]
  exact charBefore_of_ascii h.getElem?_front hascii hnewline hreturn

theorem charAfter_eq {c : UInt8} (h : Between text pos (front ++ [b]) (c :: behind))
    (hreturn : b ≠ Byte.carriageReturn) (hascii : c < 0x80) :
    charAfter text pos = [] ∨ charAfter text pos = [c] := by
  have hc : text[(front ++ [b]).length]? = some c := by
    rw [h.text_eq]
    simp
  rw [h.pos_eq]
  exact charAfter_of_ascii hc hascii (h.not_afterReturn hreturn)

end Between

end SvgAssist.Text
