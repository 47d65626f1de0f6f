import SvgAssist.Number.Whole
import SvgAssist.Text.Quoted

/-!
# Values of flags

How the text given for a flag is read: whole numbers in several bases, truth values, and lengths of
time. Each reading tells why it fails.
-/

namespace SvgAssist.Command

open Number (twoTo63 twoTo64)

inductive ValueError where
  | integerSyntax (text : Text)
  | integerRange (text : Text)
  | boolSyntax (text : Text)
  | duration (text : Text)
  | durationUnit (text : Text)
  | unknownUnit (unit text : Text)
deriving DecidableEq, Repr

def durationByte (b : UInt8) : Text :=
  if b < 0x20 || 0x80 ≤ b then
    utf8 "\\x" ++ [Byte.hexDigit (b.toNat / 16), Byte.hexDigit (b.toNat % 16)]
  else if b = Byte.doubleQuote || b = Byte.backslash then [Byte.backslash, b]
  else [b]

def durationQuote (text : Text) : Text := utf8 "\"" ++ text.flatMap durationByte ++ utf8 "\""

def ValueError.message : ValueError → Text
  | .integerSyntax text =>
    utf8 "strconv.ParseInt: parsing " ++ Text.quote text ++ utf8 ": invalid syntax"
  | .integerRange text =>
    utf8 "strconv.ParseInt: parsing " ++ Text.quote text ++ utf8 ": value out of range"
  | .boolSyntax text =>
    utf8 "strconv.ParseBool: parsing " ++ Text.quote text ++ utf8 ": invalid syntax"
  | .duration text => utf8 "time: invalid duration " ++ durationQuote text
  | .durationUnit text => utf8 "time: missing unit in duration " ++ durationQuote text
  | .unknownUnit unit text =>
    utf8 "time: unknown unit " ++ durationQuote unit ++ utf8 " in duration " ++ durationQuote text

/-! ## Whole numbers -/

def baseOf (text : Text) : Nat × Text :=
  match text with
  | 0x30 :: letter :: digit :: rest =>
    if Byte.toLower letter = 0x62 then (2, digit :: rest)
    else if Byte.toLower letter = 0x6f then (8, digit :: rest)
    else if Byte.toLower letter = 0x78 then (16, digit :: rest)
    else (8, letter :: digit :: rest)
  | 0x30 :: rest => (8, rest)
  | _ => (10, text)

def digitValue? (b : UInt8) : Option Nat :=
  if Byte.isDigit b then some (b.toNat - 0x30)
  else if Byte.isLetter b then some ((Byte.toLower b).toNat - 0x61 + 10)
  else none

inductive DigitsFault where
  | bad
  | tooBig
deriving DecidableEq, Repr

/-- The value of digits that follow the value `n`. Underscores are passed over. -/
def digitsFrom (base n : Nat) : Text → Except DigitsFault Nat
  | [] => .ok n
  | b :: rest =>
    if b = Byte.underscore then digitsFrom base n rest
    else match digitValue? b with
      | none => .error .bad
      | some d =>
        if base ≤ d then .error .bad
        else if twoTo64 ≤ n * base + d then .error .tooBig
        else digitsFrom base (n * base + d) rest

/-- Whether every underscore stands between digits. `afterDigit` tells of the byte before. -/
def underscoresFit (afterDigit : Bool) : Text → Bool
  | [] => true
  | b :: rest =>
    if b = Byte.underscore then afterDigit && rest ≠ [] && underscoresFit false rest
    else underscoresFit true rest

def readSize (text : Text) : Except DigitsFault Nat := do
  if text = [] then .error .bad
  else
    let (base, digits) := baseOf text
    let n ← digitsFrom base 0 digits
    if underscoresFit (digits.length < text.length) digits then .ok n else .error .bad

def readInteger (text : Text) : Except ValueError Int :=
  let negative := text.head? = some Byte.hyphen
  let unsigned := if negative || text.head? = some 0x2b then text.drop 1 else text
  match readSize unsigned with
  | .error .bad => .error (.integerSyntax text)
  | .error .tooBig => .error (.integerRange text)
  | .ok n =>
    if negative then if twoTo63 < n then .error (.integerRange text) else .ok (-(n : Int))
    else if twoTo63 ≤ n then .error (.integerRange text)
    else .ok n

/-! ## Truth values -/

def readBool (text : Text) : Except ValueError Bool :=
  if (["1", "t", "T", "true", "TRUE", "True"].map utf8).contains text then .ok true
  else if (["0", "f", "F", "false", "FALSE", "False"].map utf8).contains text then .ok false
  else .error (.boolSyntax text)

/-! ## Lengths of time -/

/-- The units of time in nanoseconds. Micro is written with a letter or with either of two signs. -/
def timeUnits : List (Text × Nat) :=
  [(utf8 "ns", 1), (utf8 "us", 1000), (0xc2 :: 0xb5 :: utf8 "s", 1000),
    (0xce :: 0xbc :: utf8 "s", 1000), (utf8 "ms", 1000000), (utf8 "s", 1000000000),
    (utf8 "m", 60000000000), (utf8 "h", 3600000000000)]

def decimalValue (digits : Text) : Nat := digits.foldl (fun n b => n * 10 + (b.toNat - 0x30)) 0

def numberPart (text : Text) : Text × Text × Nat :=
  let whole := text.takeWhile Byte.isDigit
  match text.drop whole.length with
  | Byte.dot :: rest =>
    let fraction := rest.takeWhile Byte.isDigit
    (whole, fraction, whole.length + 1 + fraction.length)
  | _ => (whole, [], whole.length)

def nanoseconds? (whole fraction : Text) (unit : Nat) : Option Nat :=
  let n := decimalValue whole
  let total := n * unit + decimalValue fraction * unit / Nat.pow 10 fraction.length
  if twoTo63 / unit < n || twoTo63 < total then none else some total

/-- The unit behind the number at the start of a text. It ends where another number begins. -/
def unitPart (text : Text) : Text :=
  (text.drop (numberPart text).2.2).takeWhile fun c => c ≠ Byte.dot && !Byte.isDigit c

/-- The nanoseconds of the numbers with units in a text, added to `total`. `all` is for messages. -/
def durationFrom (all : Text) (total : Nat) (text : Text) : Except ValueError Nat :=
  match text with
  | [] => .ok total
  | b :: more =>
    let (whole, fraction, size) := numberPart (b :: more)
    if whole = [] ∧ fraction = [] ∨ twoTo63 < decimalValue whole then .error (.duration all)
    else if _h : unitPart (b :: more) = [] then .error (.durationUnit all)
    else match timeUnits.lookup (unitPart (b :: more)) with
      | none => .error (.unknownUnit (unitPart (b :: more)) all)
      | some scale =>
        match nanoseconds? whole fraction scale with
        | none => .error (.duration all)
        | some amount =>
          if twoTo63 < total + amount then .error (.duration all)
          else
            durationFrom all (total + amount)
              ((b :: more).drop (size + (unitPart (b :: more)).length))
termination_by text.length
decreasing_by
  have : 0 < (unitPart (b :: more)).length := List.length_pos_iff.mpr _h
  simp only [List.length_drop, List.length_cons]
  omega

def readDuration (text : Text) : Except ValueError Int := do
  let negative := text.head? = some Byte.hyphen
  let unsigned := if negative || text.head? = some 0x2b then text.drop 1 else text
  if unsigned = utf8 "0" then return 0
  else if unsigned = [] then .error (.duration text)
  else
    let n ← durationFrom text 0 unsigned
    if negative then return -(n : Int)
    else if twoTo63 ≤ n then .error (.duration text)
    else return n

end SvgAssist.Command
