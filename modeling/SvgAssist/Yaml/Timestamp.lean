import SvgAssist.Timestamp

/-!
# Timestamps in YAML

The plain scalars that are taken for a date or for a date and a time of day: a year of four digits,
a month and a day of one or two, and after that possibly a time, with a `T` and a zone or with
blanks and without one.
-/

namespace SvgAssist.Yaml.Timestamp

open SvgAssist.Timestamp

def short? : Text → Option (Nat × Text)
  | a :: b :: rest =>
    if !Byte.isDigit a then none
    else if Byte.isDigit b then some ((a.toNat - 0x30) * 10 + (b.toNat - 0x30), rest)
    else some (a.toNat - 0x30, b :: rest)
  | [a] => if Byte.isDigit a then some (a.toNat - 0x30, []) else none
  | [] => none

def after? (b : UInt8) : Text → Option Text
  | c :: rest => if b = c then some rest else none
  | [] => none

def date? (text : Text) : Option (Timestamp × Text) := do
  let digits := text.takeWhile Byte.isDigit
  if digits.length ≠ 4 then none
  else
    let year := digitsValue digits
    let rest ← after? Byte.hyphen (text.drop 4)
    let (month, rest) ← short? rest
    let rest ← after? Byte.hyphen rest
    let (day, rest) ← short? rest
    if 1 ≤ month && month ≤ 12 && 1 ≤ day && day ≤ daysIn year month then
      some (⟨year, month, day, 0, 0, 0, 0, 0⟩, rest)
    else none

def fraction (text : Text) : Nat × Text :=
  match text with
  | point :: rest =>
    let digits := rest.takeWhile Byte.isDigit
    if (point = Byte.dot || point = 0x2c) && digits ≠ [] then
      let kept := digits.take 9
      (digitsValue kept * Nat.pow 10 (9 - kept.length), rest.drop digits.length)
    else (0, text)
  | [] => (0, [])

def time? (t : Timestamp) (text : Text) : Option (Timestamp × Text) := do
  let (hour, rest) ← short? text
  let rest ← after? Byte.colon rest
  let (minute, rest) ← short? rest
  let rest ← after? Byte.colon rest
  let (second, rest) ← short? rest
  if hour < 24 && minute < 60 && second < 60 then
    let (nanosecond, rest) := fraction rest
    some ({ t with hour, minute, second, nanosecond }, rest)
  else none

def zone? : Text → Option Int
  | [0x5a] => some 0
  | [sign, a, b, 0x3a, c, d] =>
    let hours := digitsValue [a, b]
    let minutes := digitsValue [c, d]
    let size : Int := (hours * 60 + minutes : Nat)
    if [a, b, c, d].all Byte.isDigit && hours ≤ 24 && minutes ≤ 60 then
      if sign = 0x2b then some size else if sign = Byte.hyphen then some (-size) else none
    else none
  | _ => none

def ofText? (text : Text) : Option Timestamp := do
  let (t, rest) ← date? text
  match rest with
  | [] => some t
  | b :: rest =>
    if b = 0x54 || b = 0x74 then
      let (t, rest) ← time? t rest
      return { t with zone := ← zone? rest }
    else if b = Byte.space then
      let (t, rest) ← time? t (rest.dropWhile (· == Byte.space))
      if rest = [] then some t else none
    else none

end SvgAssist.Yaml.Timestamp
