import SvgAssist.Config.Setting
import SvgAssist.Number.Whole
import SvgAssist.Timestamp

/-!
# Scalars of TOML

Strings, numbers and times. Each reader is given the text from the scalar on, and answers with what
the scalar stands for and the text that follows it.
-/

namespace SvgAssist.Config.Toml

open Number (Double digitsIn? signed?)

def isGap (b : UInt8) : Bool := b == Byte.space || b == Byte.tab

def skipGap (text : Text) : Text := text.dropWhile isGap

def after? (head : String) (text : Text) : Option Text :=
  if (utf8 head).isPrefixOf text then some (text.drop (utf8 head).length) else none

/-! ## Strings -/

/-- Whether a byte may stand in a comment or a string: no control character but a tab or the end of
a line. -/
def isAllowed (b : UInt8) : Bool :=
  (0x20 ≤ b && b ≠ 0x7f) || b = Byte.tab || b = Byte.newline || b = Byte.carriageReturn

def isClean (text : Text) : Bool := text.all isAllowed && Text.isValid text

def escapedByte? (letter : UInt8) : Option UInt8 :=
  ([(0x22, 0x22), (0x5c, 0x5c), (0x62, 0x08), (0x66, 0x0c), (0x6e, 0x0a), (0x72, 0x0d),
    (0x74, 0x09), (0x65, 0x1b)] : List (UInt8 × UInt8)).lookup letter

def numbered? (count : Nat) (text : Text) : Option Text := do
  let digits := text.take count
  if digits.length < count then none
  else
    let n ← digitsIn? 16 digits
    if 0x10ffff < n || (0xd800 ≤ n && n < 0xe000) then none
    else some (Text.ofChar (Char.ofNat n))

/-- What stands at the head of a string's contents, and how many bytes it takes. In a string of
several lines a backslash at the end of a line joins it to what follows the blanks after it. -/
def stringPiece? (joinsLines : Bool) (b : UInt8) (rest : Text) : Option (Text × Nat) :=
  if b ≠ Byte.backslash then some ([b], 1)
  else
    let behind := skipGap rest
    if joinsLines && ((utf8 "\n").isPrefixOf behind || (utf8 "\r\n").isPrefixOf behind) then
      let left := rest.dropWhile fun c => isGap c || c = Byte.newline || c = Byte.carriageReturn
      some ([], 1 + (rest.length - left.length))
    else
      match rest with
      | 0x75 :: digits => (numbered? 4 digits).map fun t => (t, 6)
      | 0x55 :: digits => (numbered? 8 digits).map fun t => (t, 10)
      | letter :: _ => (escapedByte? letter).map fun c => ([c], 2)
      | [] => none

def unescapeFrom? (joinsLines : Bool) (done : List Text) : Text → Option Text
  | [] => some done.reverse.flatten
  | b :: rest =>
    match stringPiece? joinsLines b rest with
    | none => none
    | some (piece, size) => unescapeFrom? joinsLines (piece :: done) (rest.drop (size - 1))
termination_by text => text.length
decreasing_by simp only [List.length_drop, List.length_cons]; omega

/-- The contents of a string on one line that ends at `mark`, behind `seen`, which is in reverse,
and what follows it. Where escapes are known, a backslash keeps the byte behind it from ending the
string: that byte is `kept`. -/
def lineContents? (mark : UInt8) (escapes kept : Bool) (seen : Text) : Text → Option (Text × Text)
  | [] => none
  | b :: rest =>
    if kept then lineContents? mark escapes false (b :: seen) rest
    else if b = mark then some (seen.reverse, rest)
    else if b = Byte.newline || b = Byte.carriageReturn then none
    else lineContents? mark escapes (escapes && b == Byte.backslash) (b :: seen) rest

/-- The contents of a string of several lines that ends at three marks, and what follows it. Up to
two more marks belong to the contents. -/
def blockContents? (mark : UInt8) (escapes kept : Bool) (seen : Text) : Text → Option (Text × Text)
  | [] => none
  | b :: rest =>
    if kept then blockContents? mark escapes false (b :: seen) rest
    else if b = mark && [mark, mark].isPrefixOf rest then
      let marks := rest.takeWhile (· == mark)
      let extra := marks.length - 2
      if 2 < extra then none
      else some (seen.reverse ++ Text.replicate extra mark, rest.drop marks.length)
    else if b = Byte.carriageReturn && rest.head? ≠ some Byte.newline then none
    else blockContents? mark escapes (escapes && b == Byte.backslash) (b :: seen) rest

def withoutFirstBreak (text : Text) : Text :=
  ((after? "\n" text).or (after? "\r\n" text)).getD text

def lineString? (text : Text) : Option (Text × Text) :=
  match text with
  | mark :: rest => do
    let escapes := mark = Byte.doubleQuote
    let (contents, rest) ← lineContents? mark escapes false [] rest
    if !isClean contents then none
    else
      let value ← if escapes then unescapeFrom? false [] contents else some contents
      return (value, rest)
  | [] => none

def string? (text : Text) : Option (Text × Text) :=
  match text with
  | mark :: rest =>
    if [mark, mark].isPrefixOf rest then do
      let escapes := mark = Byte.doubleQuote
      let (contents, rest) ← blockContents? mark escapes false [] (rest.drop 2)
      if !isClean contents then none
      else
        let body := withoutFirstBreak contents
        let value ← if escapes then unescapeFrom? true [] body else some body
        return (value, rest)
    else lineString? text
  | [] => none

/-! ## Numbers -/

def isSign (b : UInt8) : Bool := b == 0x2b || b == Byte.hyphen

def separatesDigits (afterDigit : Bool) : Text → Bool
  | [] => true
  | b :: rest =>
    if b = Byte.underscore then
      afterDigit && rest.head?.any (fun c => c ≠ Byte.underscore) && separatesDigits false rest
    else separatesDigits true rest

def plainDigits? (digits : Text) : Option Text :=
  if separatesDigits false digits then some (digits.filter (· ≠ Byte.underscore)) else none

def decimal? (text : Text) : Option Int := do
  let sign := text.takeWhile isSign |>.take 1
  let digits ← plainDigits? (text.drop sign.length)
  if 1 < digits.length && digits.head? = some 0x30 then none
  else signed? (digitsIn? 10) (sign ++ digits)

def markedBase? (b : UInt8) : Option Nat :=
  ([(0x78, 16), (0x6f, 8), (0x62, 2)] : List (UInt8 × Nat)).lookup b

def isDigitOf (base : Nat) (b : UInt8) : Bool :=
  b == Byte.underscore || (Byte.hexValue? b).any (· < base)

/-- Whether the underscores of a number with a point or an exponent are well placed: behind a digit,
and next to neither the point nor the exponent. `before` has the last byte, and `afterDigit` whether
there was a digit since the last sign or underscore. -/
def floatSeparators (before : Option UInt8) (afterDigit : Bool) : Text → Bool
  | [] => true
  | b :: rest =>
    let next := rest.head?
    let isExponent := b = 0x65 || b = 0x45
    if b = Byte.underscore then
      afterDigit && next ≠ some 0x65 && next ≠ some 0x45 && floatSeparators (some b) false rest
    else if isSign b then floatSeparators (some b) false rest
    else if isExponent then
      next ≠ some Byte.underscore && floatSeparators (some b) afterDigit rest
    else if b = Byte.dot then
      next ≠ some Byte.underscore && before ≠ some Byte.underscore &&
        floatSeparators (some b) afterDigit rest
    else floatSeparators (some b) true rest

def hasInnerPoint (before : Option UInt8) : Text → Bool
  | [] => true
  | b :: rest =>
    (b ≠ Byte.dot || (before.any Byte.isDigit && rest.head?.any Byte.isDigit)) &&
      hasInnerPoint (some b) rest

def float? (text : Text) : Option Double :=
  let plain := text.filter (· ≠ Byte.underscore)
  let unsigned := if plain.head?.any isSign then plain.drop 1 else plain
  let hasLeadingZero := unsigned.head? = some 0x30 && (unsigned.drop 1).head?.any Byte.isDigit
  if text.head? = some Byte.underscore || text.getLast? = some Byte.underscore then none
  else if !floatSeparators none false text || !hasInnerPoint none plain || hasLeadingZero then none
  else Double.ofText? plain

def namedNumber? (name : Text) : Option Double :=
  ([("inf", .infinite false), ("+inf", .infinite false), ("-inf", .infinite true), ("nan", .nan),
    ("+nan", .nan), ("-nan", .nan)].map fun (n, d) => (utf8 n, d)).lookup name

def number? (text : Text) : Option (Setting × Text) :=
  match text with
  | 0x30 :: b :: c :: rest =>
    if b = Byte.dot || b = 0x65 || b = 0x45 then plain (0x30 :: b :: c :: rest)
    else
      match markedBase? b with
      | none => some (.int 0, b :: c :: rest)
      | some base => do
        let digits := (c :: rest).takeWhile (isDigitOf base)
        let n ← signed? (digitsIn? base) (← plainDigits? digits)
        return (.int n, (c :: rest).drop digits.length)
  | text => plain text
where
  /-- A number in decimal, or the name of one. -/
  plain (text : Text) : Option (Setting × Text) :=
    let shown := text.takeWhile fun b =>
      Byte.isDigit b || isSign b || b = Byte.underscore || b = Byte.dot || b = 0x65 || b = 0x45
    let rest := text.drop shown.length
    if rest.head?.any (fun b => b = 0x69 || b = 0x6e) then
      (namedNumber? (shown ++ rest.take 3)).map fun d => (.float d, rest.drop 3)
    else if shown.any fun b => b = Byte.dot || b = 0x65 || b = 0x45 then
      (float? shown).map fun d => (.float d, rest)
    else (decimal? shown).map fun n => (.int n, rest)

/-! ## Times -/

def digits? (count : Nat) (text : Text) : Option (Nat × Text) :=
  let digits := text.take count
  if digits.length = count && digits.all Byte.isDigit then
    some (Timestamp.digitsValue digits, text.drop count)
  else none

def date? (text : Text) : Option (Timestamp × Text) := do
  let (year, rest) ← digits? 4 text
  let (month, rest) ← digits? 2 (← after? "-" rest)
  let (day, rest) ← digits? 2 (← after? "-" rest)
  if 1 ≤ month && month ≤ 12 && 1 ≤ day && day ≤ Timestamp.daysIn year month then
    some (⟨year, month, day, 0, 0, 0, 0, 0⟩, rest)
  else none

/-- A time of day at the head of a text, put into a timestamp, and what follows it; also the digits
of its fraction of a second, of which nine count. -/
def time? (t : Timestamp) (text : Text) : Option (Timestamp × Text × Text) := do
  let (hour, rest) ← digits? 2 text
  let (minute, rest) ← digits? 2 (← after? ":" rest)
  let (second, rest) ← digits? 2 (← after? ":" rest)
  if 24 ≤ hour || 60 ≤ minute || 60 < second then none
  else
    match rest with
    | Byte.dot :: more =>
      let digits := more.takeWhile Byte.isDigit
      let kept := digits.take 9
      if digits = [] then none
      else
        let nanosecond := Timestamp.digitsValue kept * Nat.pow 10 (9 - kept.length)
        some ({ t with hour, minute, second, nanosecond }, kept, more.drop digits.length)
    | rest => some ({ t with hour, minute, second }, [], rest)

def zone? (text : Text) : Option Int := do
  if text = utf8 "Z" || text = utf8 "z" then return 0
  else
    let sign : Int := if text.head? = some Byte.hyphen then -1 else 1
    let (hours, rest) ← digits? 2 (← (after? "+" text).or (after? "-" text))
    let (minutes, rest) ← digits? 2 (← after? ":" rest)
    if rest = [] && hours < 24 && minutes < 60 then some (sign * (hours * 60 + minutes : Nat))
    else none

def dateText (t : Timestamp) : Text :=
  Timestamp.padded 4 t.year ++ utf8 "-" ++ Timestamp.padded 2 t.month ++ utf8 "-" ++
    Timestamp.padded 2 t.day

def timeText (t : Timestamp) (fraction : Text) : Text :=
  Timestamp.padded 2 t.hour ++ utf8 ":" ++ Timestamp.padded 2 t.minute ++ utf8 ":" ++
    Timestamp.padded 2 t.second ++ (if fraction = [] then [] else Byte.dot :: fraction)

/-- The size of what is written together like a date or a time: digits and the marks between them,
and one space if digits follow it. -/
def timeSize (seenSpace : Bool) : Text → Nat
  | [] => 0
  | b :: rest =>
    if Byte.isDigit b || [0x2d, 0x54, 0x74, 0x3a, 0x2e, 0x2b, 0x5a, 0x7a].contains b then
      1 + timeSize seenSpace rest
    else
      match rest with
      | c :: rest =>
        if b = Byte.space && !seenSpace && Byte.isDigit c then
          match rest with
          | _ :: rest => 3 + timeSize true rest
          | [] => 2
        else 0
      | [] => 0

def shownTime? (text : Text) : Option Text :=
  let midnight : Timestamp := ⟨0, 0, 0, 0, 0, 0, 0, 0⟩
  match date? text with
  | none => do
    let (t, fraction, rest) ← time? midnight text
    if rest = [] then some (timeText t fraction) else none
  | some (day, []) => some (dateText day)
  | some (day, b :: rest) => do
    if b ∉ [0x54, 0x74, 0x20] then none
    else
      let (t, fraction, rest) ← time? day rest
      if rest = [] then return dateText t ++ utf8 "T" ++ timeText t fraction
      else return ({ t with zone := ← zone? rest } : Timestamp).withoutLeap.toText

def dateOrTime? (text : Text) : Option (Setting × Text) :=
  let size := timeSize false text
  (shownTime? (text.take size)).map fun shown => (.time shown, text.drop size)

/-- Whether what begins like a number is a date or a time: a colon stands behind two digits, or a
hyphen behind four. -/
def isDateOrTime (text : Text) : Bool :=
  let digits := (text.takeWhile Byte.isDigit).length
  3 ≤ text.length &&
    ((digits == 2 && text[2]? == some Byte.colon) || (digits == 4 && text[4]? == some Byte.hyphen))

end SvgAssist.Config.Toml
