import SvgAssist.Text.Basic

/-!
# Whole numbers

Whole numbers in several bases, as far as they fit 64 bits.
-/

namespace SvgAssist.Number

def twoTo63 : Nat := 0x8000000000000000

def twoTo64 : Nat := 0x10000000000000000

def digitsIn? (base : Nat) (digits : Text) : Option Nat :=
  if digits = [] then none
  else digits.foldlM (fun n b => (Byte.hexValue? b).bind fun d =>
    if d < base then some (n * base + d) else none) 0

/-- The value of a number without a sign, whose base shows in how it begins: `0x`, `0b` or `0o`, or
a zero for octal digits. -/
def anyBase? (text : Text) : Option Nat :=
  match text with
  | 0x30 :: b :: rest =>
    let letter := Byte.toLower b
    if letter = 0x78 then digitsIn? 16 rest
    else if letter = 0x62 then digitsIn? 2 rest
    else if letter = 0x6f then digitsIn? 8 rest
    else digitsIn? 8 (b :: rest)
  | _ => digitsIn? 10 text

def signed? (size? : Text → Option Nat) (text : Text) : Option Int :=
  match text with
  | 0x2d :: rest => (size? rest).bind fun n => if n ≤ twoTo63 then some (-(n : Int)) else none
  | 0x2b :: rest => (size? rest).bind fun n => if n < twoTo63 then some (n : Int) else none
  | _ => (size? text).bind fun n => if n < twoTo63 then some (n : Int) else none

def unsigned? (size? : Text → Option Nat) (text : Text) : Option Int :=
  (size? text).bind fun n => if n < twoTo64 then some (n : Int) else none

end SvgAssist.Number
