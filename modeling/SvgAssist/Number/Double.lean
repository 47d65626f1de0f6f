import SvgAssist.Text.Basic

/-!
# Numbers as binary64

What a number literal amounts to when it is read as a double, and how such a value is shown: with
the fewest digits that read back, and either all of them at their places, or with an exponent of at
least two digits from a million on and below a ten-thousandth.

All arithmetic is exact. A value is a ratio of naturals; rounding to binary64 goes to the nearest
multiple of a power of two, ties to the even one, and the digits shown are the first decimal grid,
from coarse to fine, that has a point in the interval of the reals that round to the value.
-/

namespace SvgAssist.Number

structure Decimal where
  negative : Bool
  digits : Nat
  exponent : Int
deriving DecidableEq, Repr

def digitsValue (digits : Text) : Nat := digits.foldl (fun n b => n * 10 + (b.toNat - 0x30)) 0

def exponentValue : Text → Int
  | 0x2d :: digits => -(digitsValue digits : Int)
  | 0x2b :: digits => digitsValue digits
  | digits => digitsValue digits

def Decimal.ofLiteral (literal : Text) : Decimal :=
  let (negative, body) := match literal with
    | Byte.hyphen :: body => (true, body)
    | body => (false, body)
  let whole := body.takeWhile Byte.isDigit
  let (fraction, rest) := match body.dropWhile Byte.isDigit with
    | Byte.dot :: rest => (rest.takeWhile Byte.isDigit, rest.dropWhile Byte.isDigit)
    | rest => ([], rest)
  ⟨negative, digitsValue (whole ++ fraction), exponentValue (rest.drop 1) - fraction.length⟩

structure Binary where
  mantissa : Nat
  exponent : Int
deriving DecidableEq, Repr

def roundDiv (num den : Nat) : Nat :=
  let quotient := num / den
  let twice := 2 * (num % den)
  if twice < den || (twice == den && quotient % 2 == 0) then quotient else quotient + 1

/-- `num / (den · 2 ^ q)` as a ratio of naturals. -/
def scaleRatio (num den : Nat) (q : Int) : Nat × Nat :=
  if 0 ≤ q then (num, den * Nat.pow 2 q.toNat) else (num * Nat.pow 2 (-q).toNat, den)

/-- The smallest mantissa of a binary64 that is not subnormal: two to the fifty-second. -/
def hiddenBit : Nat := 0x10000000000000

def minExponent : Int := -1074

def maxExponent : Int := 971

/-- The binary64 nearest to `num / den`; none when it is out of range. -/
def Binary.nearest? (num den : Nat) : Option Binary :=
  let guess : Int := (num.log2 : Int) - den.log2 - 52
  let fine := max (guess - 1) minExponent
  let (n, d) := scaleRatio num den fine
  let exponent :=
    if n / d < 2 * hiddenBit then fine else if n / d < 4 * hiddenBit then fine + 1 else fine + 2
  let (n, d) := scaleRatio num den exponent
  let mantissa := roundDiv n d
  let value : Binary :=
    if mantissa = 2 * hiddenBit then ⟨hiddenBit, exponent + 1⟩ else ⟨mantissa, exponent⟩
  if value.exponent ≤ maxExponent then some value else none

def digitCount (n : Nat) : Nat := (Nat.toDigits 10 n).length

def Decimal.toBinary? (d : Decimal) : Option Binary :=
  let size : Int := digitCount d.digits + d.exponent
  if d.digits = 0 || size < -400 then some ⟨0, minExponent⟩
  else if 400 < size then none
  else if 0 ≤ d.exponent then Binary.nearest? (d.digits * Nat.pow 10 d.exponent.toNat) 1
  else Binary.nearest? d.digits (Nat.pow 10 (-d.exponent).toNat)

/-- The reals that round to a value, as whole multiples of a quarter of its last place: the lower
and upper end. Below a power of two the neighbour is twice as near. -/
def Binary.bounds (v : Binary) : Nat × Nat :=
  let below := if v.mantissa = hiddenBit && minExponent < v.exponent then 1 else 2
  (4 * v.mantissa - below, 4 * v.mantissa + 2)

/-- Whether the decimal `n · 10 ^ k` rounds to a value: it is compared with the ends of the value's
interval after all three are made whole. -/
def Binary.holds (v : Binary) (n : Nat) (k : Int) : Bool :=
  let (low, high) := v.bounds
  let q := v.exponent - 2
  let tens := Nat.pow 10 k.natAbs
  let twos := Nat.pow 2 q.natAbs
  let point := (if 0 ≤ k then n * tens else n) * (if 0 ≤ q then 1 else twos)
  let unit := (if 0 ≤ q then twos else 1) * (if 0 ≤ k then 1 else tens)
  if v.mantissa % 2 = 0 then low * unit ≤ point && point ≤ high * unit
  else low * unit < point && point < high * unit

def Binary.neighbours (v : Binary) (k : Int) : Nat × Nat × Bool :=
  let tens := Nat.pow 10 k.natAbs
  let twos := Nat.pow 2 v.exponent.natAbs
  let num := v.mantissa * (if 0 ≤ v.exponent then twos else 1) * (if 0 ≤ k then 1 else tens)
  let den := (if 0 ≤ v.exponent then 1 else twos) * (if 0 ≤ k then tens else 1)
  (num / den, num / den + 1, 2 * (num % den) ≤ den)

/-- The first grid, from `10 ^ k` on to finer ones, with a point that rounds to a value: that point
and its grid. -/
def Binary.shortestFrom (v : Binary) : Nat → Int → Nat × Int
  | 0, k => ((v.neighbours k).1, k)
  | grids + 1, k =>
    let (low, high, lowNearer) := v.neighbours k
    let lowFits := 0 < low && v.holds low k
    let highFits := v.holds high k
    if lowFits && (lowNearer || !highFits) then (low, k)
    else if highFits then (high, k)
    else shortestFrom v grids (k - 1)

/-- The shortest decimal that rounds to a value: digits without zeros at the end, and a power of
ten. -/
def Binary.shortest (v : Binary) : Nat × Int :=
  let top : Int := ((v.mantissa.log2 : Int) + v.exponent) * 30103 / 100000 + 1
  let (n, k) := v.shortestFrom 20 top
  let zeros := ((Nat.toDigits 10 n).reverse.takeWhile (· == '0')).length
  (n / Nat.pow 10 zeros, k + zeros)

def exponentText (e : Int) : Text :=
  let digits := Text.ofNat e.natAbs
  (if e < 0 then utf8 "-" else utf8 "+") ++ Text.replicate (2 - digits.length) 0x30 ++ digits

def positionalText (n : Nat) (k : Int) : Text :=
  let digits := Text.ofNat n
  let point : Int := digits.length + k
  if point ≤ 0 then utf8 "0." ++ Text.replicate (-point).toNat 0x30 ++ digits
  else if digits.length ≤ point.toNat then digits ++ Text.replicate k.toNat 0x30
  else digits.take point.toNat ++ [Byte.dot] ++ digits.drop point.toNat

def decimalText (n : Nat) (k : Int) : Text :=
  let digits := Text.ofNat n
  let exponent : Int := digits.length + k - 1
  if exponent < -4 || 6 ≤ exponent then
    let fraction := digits.drop 1
    digits.take 1 ++ (if fraction = [] then [] else Byte.dot :: fraction) ++ utf8 "e" ++
      exponentText exponent
  else positionalText n k

def isDecimal (text : Text) : Bool :=
  let body := match text with
    | b :: rest => if b = 0x2b || b = Byte.hyphen then rest else text
    | [] => []
  let whole := body.takeWhile Byte.isDigit
  let rest := body.dropWhile Byte.isDigit
  let (fraction, rest) := match rest with
    | Byte.dot :: rest => (rest.takeWhile Byte.isDigit, rest.dropWhile Byte.isDigit)
    | rest => ([], rest)
  let exponent := match rest with
    | [] => true
    | e :: rest =>
      let digits := match rest with
        | b :: more => if b = 0x2b || b = Byte.hyphen then more else rest
        | [] => []
      (e == 0x65 || e == 0x45) && digits ≠ [] && digits.all Byte.isDigit
  (whole ≠ [] || fraction ≠ []) && exponent

inductive Double where
  | finite (negative : Bool) (value : Binary)
  | infinite (negative : Bool)
  | nan
deriving DecidableEq, Repr

namespace Double

def ofLiteral? (literal : Text) : Option Double :=
  let d := Decimal.ofLiteral literal
  d.toBinary?.map (.finite d.negative)

def ofText? (text : Text) : Option Double :=
  let unsigned := match text with
    | b :: rest => if b = 0x2b then rest else text
    | [] => []
  if isDecimal text then ofLiteral? unsigned else none

def ofInt (n : Int) : Double :=
  ((Binary.nearest? n.natAbs 1).map (.finite (n < 0))).getD (.infinite (n < 0))

def largest (negative : Bool) : Double := .finite negative ⟨2 * hiddenBit - 1, maxExponent⟩

def textBy (write : Nat → Int → Text) : Double → Text
  | .finite negative v =>
    let sign := if negative then utf8 "-" else []
    if v.mantissa = 0 then sign ++ utf8 "0" else let (n, k) := v.shortest; sign ++ write n k
  | .infinite negative => if negative then utf8 "-Inf" else utf8 "+Inf"
  | .nan => utf8 "NaN"

def positional (d : Double) : Text := d.textBy positionalText

def compact (d : Double) : Text := d.textBy decimalText

def isZero : Double → Bool
  | .finite _ v => v.mantissa == 0
  | _ => false

def whole? : Double → Option Int
  | .finite negative v =>
    let size : Nat :=
      if 0 ≤ v.exponent then v.mantissa * Nat.pow 2 v.exponent.toNat
      else v.mantissa / Nat.pow 2 (-v.exponent).toNat
    some (if negative then -(size : Int) else size)
  | _ => none

end Double

end SvgAssist.Number
