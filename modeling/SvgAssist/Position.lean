import SvgAssist.Text.Char

/-!
# Positions in a text

A position is a line and a column, both from zero, columns in bytes. Positions come from editors and
command lines unchecked, so they may be negative or far outside the text; `offset` brings each of
them to a byte offset by clamping the line to the text and the column to the line. A carriage return
before a newline belongs to no column of its line.

`offset` and `positionAt` go back and forth between the two addresses, `slice` is the text between
two positions, and `charBefore` and `charAfter` are the characters on either side of a cursor.
-/

namespace SvgAssist

structure Position where
  line : Int
  column : Int
deriving DecidableEq, Repr, Inhabited

namespace Position

def le (a b : Position) : Bool := a.line < b.line || (a.line == b.line && a.column ≤ b.column)

end Position

structure Range where
  start : Position
  stop : Position
deriving DecidableEq, Repr, Inhabited

/-- Signed 64-bit arithmetic: the representative of `n` between -2^63 and 2^63. -/
def wrap64 (n : Int) : Int := Int.bmod n 0x10000000000000000

namespace Text

def lineCount (text : Text) : Nat := (lines text).length

def fromLine : Nat → Text → Text
  | 0, text => text
  | _ + 1, [] => []
  | n + 1, b :: rest => fromLine (if b = Byte.newline then n else n + 1) rest

def line (text : Text) (n : Int) : Text :=
  if n < 0 then []
  else withoutReturn ((fromLine n.toNat text).takeWhile (· ≠ Byte.newline))

def lineStart (text : Text) (n : Nat) : Nat := total (((lines text).take n).map (·.length + 1))

/-- The byte offset of a position, after the line is clamped to the text and the column to the
line. -/
def offset (text : Text) (pos : Position) : Nat :=
  if pos.line < 0 then 0
  else if (lineCount text : Int) ≤ pos.line then text.length
  else lineStart text pos.line.toNat + min pos.column.toNat (line text pos.line).length

/-- The position of a byte offset, clamped to the text: the newlines before it, and the bytes since
the last of them. -/
def positionAt (text : Text) (offset : Int) : Position :=
  let before := text.take offset.toNat
  ⟨before.count Byte.newline, (before.reverse.takeWhile (· ≠ Byte.newline)).length⟩

def slice (text : Text) (range : Range) : Text :=
  let start := offset text range.start
  (text.drop start).take (offset text range.stop - start)

def before (text : Text) (pos : Position) : Text := slice text ⟨⟨0, 0⟩, pos⟩

def maxCharWidth : Nat := 4

def charBefore (text : Text) (pos : Position) : Text :=
  if pos.column ≤ 0 then []
  else lastCharBytes (slice text ⟨⟨pos.line, max (pos.column - maxCharWidth) 0⟩, pos⟩)

/-- The character after a position on its line, and nothing at the end of the line. The end of the
window is computed in 64 bits. -/
def charAfter (text : Text) (pos : Position) : Text :=
  firstCharBytes (slice text ⟨pos, ⟨pos.line, wrap64 (pos.column + maxCharWidth)⟩⟩)

end Text

end SvgAssist
