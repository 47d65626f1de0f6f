import SvgAssist.Text.Basic

/-!
# Timestamps

Dates with a time of day and a zone, and how they are shown.
-/

namespace SvgAssist

structure Timestamp where
  year : Nat
  month : Nat
  day : Nat
  hour : Nat
  minute : Nat
  second : Nat
  nanosecond : Nat
  zone : Int
deriving DecidableEq, Repr

namespace Timestamp

def padded (width n : Nat) : Text :=
  let digits := Text.ofNat n
  Text.replicate (width - digits.length) 0x30 ++ digits

def fractionText (nanosecond : Nat) : Text :=
  if nanosecond = 0 then []
  else Byte.dot :: ((padded 9 nanosecond).reverse.dropWhile (· == 0x30)).reverse

def zoneText (zone : Int) : Text :=
  (if zone < 0 then utf8 "-" else utf8 "+") ++ padded 2 (zone.natAbs / 60) ++
    padded 2 (zone.natAbs % 60)

/-- A timestamp as it is shown: the date, the time, the zone, and the name of the zone, which is
known for universal time only. -/
def toText (t : Timestamp) : Text :=
  padded 4 t.year ++ utf8 "-" ++ padded 2 t.month ++ utf8 "-" ++ padded 2 t.day ++ utf8 " " ++
    padded 2 t.hour ++ utf8 ":" ++ padded 2 t.minute ++ utf8 ":" ++ padded 2 t.second ++
    fractionText t.nanosecond ++ utf8 " " ++ zoneText t.zone ++ utf8 " " ++
    (if t.zone = 0 then utf8 "UTC" else zoneText t.zone)

def isLeapYear (year : Nat) : Bool := year % 4 == 0 && (year % 100 != 0 || year % 400 == 0)

def daysIn (year month : Nat) : Nat :=
  if month = 2 then (if isLeapYear year then 29 else 28)
  else if month = 4 || month = 6 || month = 9 || month = 11 then 30
  else 31

def nextDay (t : Timestamp) : Timestamp :=
  if t.day < daysIn t.year t.month then { t with day := t.day + 1 }
  else if t.month < 12 then { t with month := t.month + 1, day := 1 }
  else { t with year := t.year + 1, month := 1, day := 1 }

/-- A timestamp whose second may be the sixtieth, which is the first one of the next minute. -/
def withoutLeap (t : Timestamp) : Timestamp :=
  if t.second < 60 then t
  else if t.minute < 59 then { t with minute := t.minute + 1, second := t.second - 60 }
  else if t.hour < 23 then { t with hour := t.hour + 1, minute := 0, second := t.second - 60 }
  else { t.nextDay with hour := 0, minute := 0, second := t.second - 60 }

def digitsValue (digits : Text) : Nat := digits.foldl (fun n b => n * 10 + (b.toNat - 0x30)) 0

end Timestamp

end SvgAssist
