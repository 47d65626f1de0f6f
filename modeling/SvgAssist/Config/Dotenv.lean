import SvgAssist.Config.Setting
import SvgAssist.Text.Blank
import SvgAssist.Text.Units

/-!
# Settings in environment files

A file of lines as a shell might read them: `NAME=value`, possibly behind `export`, or
`NAME: value`. A quoted value may have several lines. Unless it is in single quotes it may refer to
variables of the environment, and to names given earlier, as `$NAME`.
-/

namespace SvgAssist.Config.Dotenv

abbrev Names := List (Text × Text)

/-! ## Lines -/

/-- The lines of a text, which end at newlines, at carriage returns, or at both together. -/
def lines (text : Text) : List Text :=
  match text with
  | [] => [[]]
  | b :: rest =>
    if b = Byte.newline then [] :: lines rest
    else if b = Byte.carriageReturn then
      if rest.head? = some Byte.newline then lines rest else [] :: lines rest
    else
      match lines rest with
      | [] => [[b]]
      | line :: more => (b :: line) :: more

def maxLine : Nat := 65536

def isSpace (b : UInt8) : Bool :=
  b == Byte.space || b == Byte.tab || b == Byte.newline || b == Byte.formFeed ||
    b == Byte.carriageReturn

def skipSpace (text : Text) : Text := text.dropWhile isSpace

def lastIndexOf? (b : UInt8) (text : Text) : Option Nat :=
  (Text.indexOf [b] text.reverse).map fun n => text.length - 1 - n

def openQuote? (line : Text) : Option UInt8 := do
  let split ← (Text.indexOf [Byte.equals] line).or (Text.indexOf [Byte.colon] line)
  if split = 0 then none
  else
    match Text.trim (line.drop (split + 1)) with
    | [] => none
    | quote :: rest =>
      if quote ≠ Byte.doubleQuote && quote ≠ Byte.singleQuote then none
      else
        match lastIndexOf? quote (Text.trim rest) with
        | none => some quote
        | some n => if (quote :: rest)[n]? = some Byte.backslash then some quote else none

/-- Whether a line closes a quote: the last one of its kind has no backslash before it. -/
def closes (quote : UInt8) (text : Text) : Bool :=
  match lastIndexOf? quote text with
  | none => false
  | some 0 => true
  | some (n + 1) => text[n]? ≠ some Byte.backslash

def joined? (quote : UInt8) (line : Text) : List Text → Option (Text × List Text)
  | [] => none
  | next :: rest =>
    let line := line ++ [Byte.newline] ++ next
    if closes quote next then some (line, rest) else joined? quote line rest

/-- The definitions in a file: each on a line that is not empty and no comment, or on several if a
quote is open at the end of the first. There are fewer than `fuel` lines. -/
def definitionsFrom? : Nat → List Text → Option (List Text)
  | 0, _ => none
  | _ + 1, [] => some []
  | fuel + 1, line :: rest =>
    let line := Text.trim line
    if line = [] || line.head? = some 0x23 then definitionsFrom? fuel rest
    else do
      let (line, rest) ← match openQuote? line with
        | none => some (line, rest)
        | some quote => joined? quote line rest
      return line :: (← definitionsFrom? fuel rest)

def decoded : Text → Text
  | 0xef :: 0xbb :: 0xbf :: text => Text.repaired text
  | 0xff :: 0xfe :: text => Text.ofUnits false text
  | 0xfe :: 0xff :: text => Text.ofUnits true text
  | text => text

def definitions? (text : Text) : Option (List Text) :=
  let found := lines (decoded text)
  if found.any (maxLine ≤ ·.length) then none else definitionsFrom? (found.length + 1) found

/-! ## Definitions -/

def isNameByte (b : UInt8) : Bool :=
  Byte.isLetter b || Byte.isDigit b || b == Byte.underscore || b == Byte.dot

def isOver (text : Text) : Bool :=
  match skipSpace text with
  | [] => true
  | b :: rest => b == 0x23 && !rest.contains Byte.newline

/-- The value in quotes that a text begins with: it reaches to the last quote that nothing follows.
`seen` has what was read of it, in reverse, and `found` the value up to the last such quote. -/
def quoted? (quote : UInt8) (seen : Text) (found : Option Text) : Text → Option Text
  | [] => found
  | b :: rest =>
    let seen := b :: seen
    quoted? quote seen (if b = quote && isOver rest then some seen.reverse else found) rest

def valueAt? (text : Text) : Option Text :=
  let bare := text.takeWhile fun b => b ≠ 0x23 && b ≠ Byte.newline
  let inQuotes := match text with
    | [] => none
    | b :: rest =>
      if b = Byte.singleQuote || b = Byte.doubleQuote then quoted? b [b] none rest else none
  match inQuotes with
  | some value => some value
  | none => if isOver (text.drop bare.length) then some bare else none

/-- The value behind a colon: one white space belongs to the colon, or more if need be. -/
def valueBehindColon? : Text → Option Text
  | [] => none
  | b :: rest => if isSpace b then (valueAt? rest).or (valueBehindColon? rest) else none

def pair? (text : Text) : Option (Text × Text) :=
  let name := text.takeWhile isNameByte
  let rest := text.drop name.length
  if name = [] then none
  else
    match skipSpace rest, rest with
    | Byte.equals :: value, _ => (valueAt? (skipSpace value)).map fun v => (name, v)
    | _, Byte.colon :: value => (valueBehindColon? value).map fun v => (name, v)
    | _, _ => none

def definition? (line : Text) : Option (Text × Text) :=
  let text := skipSpace line
  let mark := utf8 "export"
  let exported :=
    if mark.isPrefixOf text && (text.drop mark.length).head?.any isSpace then
      pair? (skipSpace (text.drop mark.length))
    else none
  exported.or (pair? text)

/-! ## Values -/

/-- A text with its backslashes taken away, except in front of dollar signs. What stands behind one
is `kept`. -/
def unescape (kept : Bool) : Text → Text
  | [] => []
  | b :: rest =>
    if !kept && b = Byte.backslash && rest.head?.any (· ≠ 0x24) then unescape true rest
    else b :: unescape false rest

def withBreaks : Text → Text
  | 0x5c :: 0x6e :: rest => Byte.newline :: withBreaks rest
  | 0x5c :: 0x72 :: rest => Byte.carriageReturn :: withBreaks rest
  | b :: rest => b :: withBreaks rest
  | [] => []

def isVariableByte (b : UInt8) : Bool :=
  (0x41 ≤ b && b ≤ 0x5a) || Byte.isDigit b || b == Byte.underscore

/-- The size of a reference and the name in it; `rest` follows its dollar sign. Braces need not
match. -/
def reference (rest : Text) : Nat × Text :=
  let opened := if rest.head? = some 0x7b then 1 else 0
  let name := (rest.drop opened).takeWhile isVariableByte
  let closed := if (rest.drop (opened + name.length)).head? = some 0x7d then 1 else 0
  (opened + name.length + closed, name)

variable {m : Type → Type} [Monad m]

def variableValue (getVar? : Text → m (Option Text)) (names : Names) (name : Text) : m Text := do
  match ← getVar? name with
  | some value => return value
  | none => return (names.reverse.lookup name).getD []

/-- A text with its references replaced. One behind a backslash stays. -/
def expand (getVar? : Text → m (Option Text)) (names : Names) : Text → m Text
  | [] => return []
  | b :: rest => do
    let isKept := b = Byte.backslash && rest.head? = some 0x24
    if isKept then
      let size := 1 + (reference (rest.drop 1)).1
      return rest.take size ++ (← expand getVar? names (rest.drop size))
    else if b = 0x24 then
      let (size, name) := reference rest
      let value ← if name = [] then pure (b :: rest.take size) else variableValue getVar? names name
      return value ++ (← expand getVar? names (rest.drop size))
    else return b :: (← expand getVar? names rest)
termination_by text => text.length
decreasing_by all_goals (simp only [List.length_drop, List.length_cons]; omega)

def isBetween (quote : UInt8) (text : Text) : Bool :=
  2 ≤ text.length && text.head? == some quote && text.getLast? == some quote

def meaning (getVar? : Text → m (Option Text)) (names : Names) (value : Text) : m Text :=
  let value := Text.trim value
  let inner := (value.drop 1).dropLast
  if isBetween Byte.singleQuote value then return inner
  else if isBetween Byte.doubleQuote value then
    expand getVar? names (unescape false (withBreaks inner))
  else expand getVar? names value

def table? (getVar? : Text → m (Option Text)) (text : Text) : OptionT m Entries := do
  let found ← OptionT.mk (return definitions? text)
  let names ← found.foldlM (fun (names : Names) line => do
    let (name, value) ← OptionT.mk (return definition? line)
    let shown ← OptionT.lift (meaning getVar? names value)
    return names ++ [(name, shown)]) []
  return names.map fun (name, value) => (name, .text value)

end SvgAssist.Config.Dotenv
