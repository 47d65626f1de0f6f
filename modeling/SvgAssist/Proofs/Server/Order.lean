import SvgAssist.Proofs.Server.Address

/-!
# The order of client positions

Client positions are ordered by line and then by character. The position of an offset is not behind
that of a later one, as long as it does not stand inside of a character (`clientPositionAt_le`).
-/

namespace SvgAssist

namespace Text

-- No fewer units stand in front of what is behind a place between two characters.
theorem Boundary.units_take_le {line : Text} {a b : Nat} (ha : Boundary line a) (hle : a ≤ b) :
    units (line.take a) ≤ units (line.take b) := by
  obtain ⟨k, hk⟩ := ha.take hle
  have hcut : chars (line.take a) = (chars (line.take b)).take k := by
    have htake := chars_take (line.take b) k
    rwa [hk, List.take_take, Nat.min_eq_left hle] at htake
  rw [units, units, hcut]
  exact total_take_le_total (·.units) _ k

end Text

namespace Server

open Text

/-! ## Order -/

instance : LE ClientPosition where
  le a b := a.line < b.line ∨ a.line = b.line ∧ a.character ≤ b.character

theorem ClientPosition.le_def {a b : ClientPosition} :
    a ≤ b ↔ a.line < b.line ∨ a.line = b.line ∧ a.character ≤ b.character := Iff.rfl

def ClientRange.Within (a b : ClientRange) : Prop := b.start ≤ a.start ∧ a.stop ≤ b.stop

/-! ## Edges -/

/-- An offset that a cursor can have, or the end of the text. -/
def Edge (text : Text) (o : Nat) : Prop := Caret text o ∨ o = text.length

variable {text : Text} {o : Nat}

theorem Edge.le_length (h : Edge text o) : o ≤ text.length := h.elim Caret.le_length Eq.le

/-- The bytes of its line in front of an offset. A carriage return at the end of the line is none of
them. -/
def shownColumn (text : Text) (o : Nat) : Nat :=
  min (lineBefore text o).length (line text ((text.take o).count Byte.newline : Nat)).length

theorem clientPositionAt_eq (text : Text) (o : Nat) :
    clientPositionAt text o = ⟨word ((text.take o).count Byte.newline : Nat),
      word (units ((line text ((text.take o).count Byte.newline : Nat)).take
        (shownColumn text o)) : Nat)⟩ := by
  rw [clientPositionAt, toClient, positionAt_natCast]
  simp only [Int.toNat_natCast]
  rw [shownColumn, ← List.take_eq_take_min]

-- What the line shows in front of an edge ends between two characters.
theorem Edge.boundary (h : Edge text o) :
    Boundary (line text ((text.take o).count Byte.newline : Nat)) (shownColumn text o) := by
  rcases h with h | rfl
  · have hle := (lineBefore_prefix_line h.notAfterReturn).length_le
    rw [← line_at] at hle
    rw [shownColumn, Nat.min_eq_left hle]
    exact h.boundary_line
  -- Behind the last line stands at most what the line gives up.
  · have hafter : lineAfter text text.length = [] := by
      rw [lineAfter, List.drop_length, List.takeWhile_nil]
    have hle := (isPrefix_withoutReturn (lineBefore text text.length)).length_le
    have hline := line_at text text.length
    rw [hafter, List.append_nil] at hline
    rw [← hline] at hle
    rw [shownColumn, Nat.min_eq_right hle]
    exact boundary_length _

-- Cutting to 32 bits keeps the order of numbers that fit.
theorem word_le {a b : Nat} (hle : a ≤ b) (hb : b < UInt32.size) : word a ≤ word b := by
  rw [UInt32.le_iff_toNat_le, toNat_word hb, toNat_word (hle.trans_lt hb)]
  exact hle

theorem word_lt {a b : Nat} (hlt : a < b) (hb : b < UInt32.size) : word a < word b := by
  rw [UInt32.lt_iff_toNat_lt, toNat_word hb, toNat_word (hlt.trans hb)]
  exact hlt

/-- The client position of an edge is not behind that of a later offset. -/
theorem clientPositionAt_le {a b : Nat} (hlen : text.length < UInt32.size) (ha : Edge text a)
    (hle : a ≤ b) : clientPositionAt text a ≤ clientPositionAt text b := by
  obtain ⟨n, rfl⟩ := Nat.exists_eq_add_of_le hle
  have hcount : (text.take (a + n)).count Byte.newline =
      (text.take a).count Byte.newline + ((text.drop a).take n).count Byte.newline := by
    rw [List.take_add, List.count_append]
  have hlines := (Fits.of_length hlen (a + n)).line
  rw [clientPositionAt_eq, clientPositionAt_eq, ClientPosition.le_def]
  by_cases hbreak : Byte.newline ∈ (text.drop a).take n
  · have hpos := List.count_pos_iff.mpr hbreak
    exact .inl (word_lt (by omega) hlines)
  · -- Both stand on the same line, on which more stands before the later one.
    have hsame := count_take_add hbreak
    have hcolumn : shownColumn text a ≤ shownColumn text (a + n) := by
      rw [shownColumn, shownColumn, hsame, lineBefore_add hbreak, List.length_append]
      omega
    have hunits : units ((line text ((text.take a).count Byte.newline : Nat)).take
        (shownColumn text (a + n))) < UInt32.size := by
      have hshown : shownColumn text (a + n) ≤ (lineBefore text (a + n)).length :=
        Nat.min_le_left _ _
      have hbefore := length_lineBefore_le text (a + n)
      have htaken := List.length_take_le (shownColumn text (a + n))
        (line text ((text.take a).count Byte.newline : Nat))
      exact (units_le_length _).trans_lt (by omega)
    rw [hsame]
    exact .inr ⟨rfl, word_le (ha.boundary.units_take_le hcolumn) hunits⟩

end Server

end SvgAssist
