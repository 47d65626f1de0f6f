import SvgAssist.Server.Position
import SvgAssist.Proofs.Text.Columns

/-!
# Client positions of offsets

An editor says where an offset is by the newlines in front of it and the UTF-16 units since the last
of them, as far as these go into 32 bits (`Fits`). At a place where a cursor can stand the server
reads this back as the position of that offset (`Addresses.ofClient_eq`), and says it the same way
itself (`clientPositionAt_eq_place`).
-/

namespace SvgAssist.Server

open Text

variable {text : Text} {o : Nat} {p : ClientPosition}

/-- A client position that means an offset: its line is the number of newlines before it, and its
character the number of UTF-16 units before it on the line. -/
structure Addresses (p : ClientPosition) (text : Text) (o : Nat) : Prop where
  line : p.line.toNat = (text.take o).count Byte.newline
  character : p.character.toNat = units (lineBefore text o)

def place (text : Text) (o : Nat) : ClientPosition :=
  ⟨word ((text.take o).count Byte.newline : Nat), word (units (lineBefore text o) : Nat)⟩

theorem toNat_word {n : Nat} (h : n < UInt32.size) : (word n).toNat = n := by
  rw [word, Int.toNat_natCast, UInt32.toNat_ofNat_of_lt' h]

-- The line in front of an offset is a part of all that stands in front of it.
theorem length_lineBefore_le_take (text : Text) (o : Nat) :
    (lineBefore text o).length ≤ (text.take o).length := by
  unfold lineBefore
  have htake := (List.takeWhile_prefix (· ≠ Byte.newline) (l := (text.take o).reverse)).length_le
  rwa [List.length_reverse] at htake ⊢

theorem length_lineBefore_le (text : Text) (o : Nat) :
    (lineBefore text o).length ≤ text.length :=
  (length_lineBefore_le_take text o).trans (List.length_take_le' o text)

/-- An offset whose line number and UTF-16 column are not cut off. -/
structure Fits (text : Text) (o : Nat) : Prop where
  line : (text.take o).count Byte.newline < UInt32.size
  character : units (lineBefore text o) < UInt32.size

-- 32 bits are enough for the position behind fewer bytes.
theorem Fits.of_take (h : (text.take o).length < UInt32.size) : Fits text o where
  line := List.count_le_length.trans_lt h
  character :=
    ((units_le_length (lineBefore text o)).trans (length_lineBefore_le_take text o)).trans_lt h

theorem Fits.of_length (hlen : text.length < UInt32.size) (o : Nat) : Fits text o :=
  .of_take ((List.length_take_le' o text).trans_lt hlen)

theorem Fits.addresses (h : Fits text o) : Addresses (place text o) text o :=
  ⟨toNat_word h.line, toNat_word h.character⟩

-- What a client says of an offset is below the size of its words.
theorem Addresses.fits (h : Addresses p text o) : Fits text o :=
  ⟨h.line ▸ p.line.toNat_lt_size, h.character ▸ p.character.toNat_lt_size⟩

theorem place_addresses (hlen : text.length < UInt32.size) (o : Nat) :
    Addresses (place text o) text o :=
  (Fits.of_length hlen o).addresses

-- On a first line of ASCII characters the columns are those of the bytes.
theorem place_behind_plain {front : Text} (h : Plain front) (rest : Text) :
    place (front ++ rest) front.length = ⟨0, word front.length⟩ := by
  rw [place, List.take_left, List.count_eq_zero.mpr h.newline_notMem,
    lineBefore_length_append h.newline_notMem, units_of_ascii h.ascii]
  rfl

theorem word_toNat (w : UInt32) : word (w.toNat : Nat) = w := by
  rw [word, Int.toNat_natCast, UInt32.ofNat_toNat]

-- Only one client position means an offset.
theorem Addresses.eq_place (h : Addresses p text o) : p = place text o := by
  rw [place, ← h.line, ← h.character, word_toNat, word_toNat]

-- Where a cursor can stand, the UTF-16 column leads back to the byte column.
theorem Addresses.ofClient_eq (h : Addresses p text o) (hcaret : Caret text o) :
    ofClient text p = positionAt text o := by
  rw [ofClient, h.line, h.character, hcaret.byteColumn_line, positionAt_natCast]

-- The server finds the offset that the editor meant.
theorem Addresses.offset_ofClient (h : Addresses p text o) (hcaret : Caret text o) :
    offset text (ofClient text p) = o := by
  rw [h.ofClient_eq hcaret, offset_positionAt hcaret.le_length hcaret.notAfterReturn]

-- The server counts as the editor does, as no carriage return that ends the line stands in front.
theorem clientPositionAt_eq_place (hcaret : Caret text o) :
    clientPositionAt text o = place text o := by
  rw [clientPositionAt, toClient, positionAt_natCast]
  simp only [Int.toNat_natCast]
  rw [take_line hcaret.notAfterReturn, place]

end SvgAssist.Server
