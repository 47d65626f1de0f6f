import SvgAssist.Text.Basic

/-!
# Base64

Bytes written with sixty-four characters, four for every three bytes. The last group is filled up
with equals signs. Line ends may stand anywhere and count for nothing.
-/

namespace SvgAssist.Text.Base64

def value? (b : UInt8) : Option Nat :=
  if 0x41 ≤ b && b ≤ 0x5a then some (b.toNat - 0x41)
  else if 0x61 ≤ b && b ≤ 0x7a then some (b.toNat - 0x61 + 26)
  else if Byte.isDigit b then some (b.toNat - 0x30 + 52)
  else if b = 0x2b then some 62
  else if b = Byte.slash then some 63
  else none

def bytesOf (n count : Nat) : Text :=
  [(n / 0x10000).toUInt8, (n / 0x100 % 0x100).toUInt8, (n % 0x100).toUInt8].take count

/-- The bytes of groups of four characters. Only the last group may be filled up. -/
def groups? : Text → Option Text
  | [] => some []
  | a :: b :: c :: d :: rest => do
    let high := (← value? a) * 0x40 + (← value? b)
    if rest = [] && d = Byte.equals then
      if c = Byte.equals then return bytesOf (high * 0x1000) 1
      else return bytesOf ((high * 0x40 + (← value? c)) * 0x40) 2
    else
      let n := (high * 0x40 + (← value? c)) * 0x40 + (← value? d)
      return bytesOf n 3 ++ (← groups? rest)
  | _ => none

def decode? (text : Text) : Option Text :=
  groups? (text.filter fun b => b ≠ Byte.newline && b ≠ Byte.carriageReturn)

end SvgAssist.Text.Base64
