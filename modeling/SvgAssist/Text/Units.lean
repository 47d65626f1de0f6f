import SvgAssist.Text.Char

/-!
# UTF-16

Editors count columns in UTF-16 code units, texts are addressed in bytes. A character takes one unit
in the basic plane and two above it; a byte that belongs to no character takes one. Some files are
written in UTF-16, with a byte order mark in front.
-/

namespace SvgAssist

def Decoded.units (d : Decoded) : Nat := if 0xffff < d.char.toNat then 2 else 1

namespace Text

/-- The character of a surrogate pair; two units that are none stand for the replacement
character. -/
def pairChar (high low : Nat) : Char :=
  if high < 0xdc00 && 0xdc00 ≤ low && low < 0xe000 then
    Char.ofNat (0x10000 + (high - 0xd800) * 0x400 + (low - 0xdc00))
  else Char.ofNat 0xfffd

def ofUnits (bigEndian : Bool) (bytes : Text) : Text :=
  let unit (a b : UInt8) : Nat :=
    if bigEndian then a.toNat * 256 + b.toNat else b.toNat * 256 + a.toNat
  match bytes with
  | [] => []
  | [_] => ofChar (Char.ofNat 0xfffd)
  | a :: b :: rest =>
    let n := unit a b
    if n < 0xd800 || 0xe000 ≤ n then ofChar (Char.ofNat n) ++ ofUnits bigEndian rest
    else
      match rest with
      | c :: d :: more =>
        let low := unit c d
        if 0xdc00 ≤ low && low < 0xe000 then ofChar (pairChar n low) ++ ofUnits bigEndian more
        else ofChar (Char.ofNat 0xfffd) ++ ofUnits bigEndian (c :: d :: more)
      | rest => ofChar (Char.ofNat 0xfffd) ++ ofUnits bigEndian rest
termination_by bytes.length

def units (text : Text) : Nat := total ((chars text).map (·.units))

/-- The byte at which the unit `goal` begins in the characters that follow `seen` units and `column`
bytes. A unit inside of a character moves past it, and one past the end to the end. -/
def columnFrom (goal : Int) (seen column : Nat) : List Decoded → Nat
  | [] => column
  | d :: ds =>
    if goal ≤ seen then column else columnFrom goal (seen + d.units) (column + d.width) ds

def byteColumn (line : Text) (goal : Int) : Nat := columnFrom goal 0 0 (chars line)

end Text

end SvgAssist
