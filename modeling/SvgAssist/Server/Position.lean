import SvgAssist.Position
import SvgAssist.Text.Units

/-!
# Positions of the client

A client addresses a document by lines and UTF-16 columns, in 32-bit words. `Text.toClient` and
`Text.ofClient` go between its positions and those of the text; a line without the text keeps its
number, and a column past the end of a line becomes the end. `Places` has the lines and columns of
all offsets of a text, for answers that need many of them.
-/

namespace SvgAssist

namespace Server

structure ClientPosition where
  line : UInt32
  character : UInt32
deriving DecidableEq, Repr, Inhabited

structure ClientRange where
  start : ClientPosition
  stop : ClientPosition
deriving DecidableEq, Repr, Inhabited

/-- A count as the client sees it: nothing is below zero, and 32 bits are kept. -/
def word (n : Int) : UInt32 := .ofNat n.toNat

end Server

namespace Text

open Server

def ofClient (text : Text) (p : ClientPosition) : Position :=
  ⟨p.line.toNat, byteColumn (line text p.line.toNat) p.character.toNat⟩

def toClient (text : Text) (pos : Position) : ClientPosition :=
  ⟨word pos.line, word (units ((line text pos.line).take pos.column.toNat))⟩

def toClientRange (text : Text) (range : Range) : ClientRange :=
  ⟨toClient text range.start, toClient text range.stop⟩

def clientPositionAt (text : Text) (offset : Int) : ClientPosition :=
  toClient text (positionAt text offset)

end Text

/-! ## All positions at once -/

/-- The UTF-16 columns of the bytes of some characters, and of their end, behind `seen` units and
the columns in `found`, which are in reverse. The bytes inside of a character count one each. -/
def Text.unitColumnsFrom (seen : Nat) (found : List Nat) : List Decoded → List Nat
  | [] => (seen :: found).reverse
  | d :: ds =>
    unitColumnsFrom (seen + d.units)
      ((List.range d.width).foldl (fun found k => (seen + k) :: found) found) ds

def Text.unitColumns (line : Text) : List Nat :=
  let shown := withoutReturn line
  unitColumnsFrom 0 [] (chars shown) ++
    List.replicate (line.length - shown.length) (units shown)

namespace Server

/-- The lines and the UTF-16 columns of all byte offsets of a text, the end included. -/
structure Places where
  entries : Array (Nat × Nat)

namespace Places

def ofText (text : Text) : Places where
  entries := ((Text.lines text).zipIdx.flatMap fun (line, n) =>
    (Text.unitColumns line).map fun column => (n, column)).toArray

/-- The line and the column of a byte offset, those of the end if it is outside of the text. -/
def entry (ps : Places) (offset : Nat) : Nat × Nat :=
  ps.entries[min offset (ps.entries.size - 1)]?.getD (0, 0)

def line (ps : Places) (offset : Nat) : Nat := (ps.entry offset).1

def locate (ps : Places) (offset : Nat) : ClientPosition :=
  ⟨word (ps.entry offset).1, word (ps.entry offset).2⟩

def span (ps : Places) (start stop : Nat) : ClientRange := ⟨ps.locate start, ps.locate stop⟩

end Places

end Server

end SvgAssist
