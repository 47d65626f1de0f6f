import SvgAssist.Number.Whole
import SvgAssist.Text.Printable

/-!
# Tokens of HCL

Names, numbers, strings, blocks of lines and marks. Comments and white space between them are passed
over.
-/

namespace SvgAssist.Config.Hcl

/-- A token. Numbers keep how they are written, and are whole or have a point or an exponent. A
block is a text on lines of its own, between lines with its name. -/
inductive Token where
  | name (text : Text)
  | flag (value : Bool)
  | whole (literal : Text)
  | decimal (literal : Text)
  | string (value : Text)
  | block (value : Text)
  | mark (c : Char)
deriving DecidableEq, Repr

/-- A letter of a name. Beyond ASCII every printable character counts as one. -/
def isLetter (c : Char) : Bool :=
  c.isAlpha || c == '_' || (0x80 ≤ c.toNat && Text.isPrintable c)

def isNameChar (c : Char) : Bool := isLetter c || c.isDigit || c == '-' || c == '.'

def digit? (base : Nat) (c : Char) : Option Nat :=
  if c.toNat < 0x80 then (Byte.hexValue? c.toNat.toUInt8).filter (· < base) else none

/-! ## Numbers -/

def exponent? (text : List Char) : Option (List Char × List Char) :=
  let sign := text.take 1 |>.filter fun c => c == '+' || c == '-'
  let rest := text.drop sign.length
  let digits := rest.takeWhile Char.isDigit
  if digits = [] then none else some (sign ++ digits, rest.drop digits.length)

def withExponent? (literal text : List Char) : Option (List Char × List Char) :=
  match text with
  | c :: rest =>
    if c = 'e' || c = 'E' then
      (exponent? rest).map fun (digits, rest) => (literal ++ c :: digits, rest)
    else some (literal, text)
  | [] => some (literal, [])

def number? (text : List Char) : Option (Token × List Char) :=
  match text with
  | '0' :: x :: rest =>
    if x = 'x' || x = 'X' then
      let digits := rest.takeWhile fun c => (digit? 16 c).isSome
      if digits = [] then none
      else some (.whole (Text.ofChars ('0' :: x :: digits)), rest.drop digits.length)
    else decimal? text
  | text => decimal? text
where
  /-- A number in decimal. -/
  decimal? (text : List Char) : Option (Token × List Char) :=
    let digits := text.takeWhile Char.isDigit
    let rest := text.drop digits.length
    match rest with
    | '.' :: more =>
      let fraction := more.takeWhile Char.isDigit
      (withExponent? (digits ++ '.' :: fraction) (more.drop fraction.length)).map
        fun (literal, rest) => (.decimal (Text.ofChars literal), rest)
    | rest =>
      (withExponent? digits rest).map fun (literal, rest) =>
        let shown := Text.ofChars literal
        (if literal.length = digits.length then .whole shown else .decimal shown, rest)

def negated : Token → Token
  | .whole literal => .whole (Byte.hyphen :: literal)
  | .decimal literal => .decimal (Byte.hyphen :: literal)
  | other => other

/-! ## Strings -/

def digits? (base count : Nat) (text : List Char) : Option Nat :=
  let digits := text.take count
  if digits.length < count then none
  else digits.foldlM (fun n c => (digit? base c).map (n * base + ·)) 0

/-- The character with a number, in bytes. A surrogate on its own stands for the replacement
character. -/
def numbered? (n : Nat) : Option Text :=
  if 0x10ffff < n then none
  else if 0xd800 ≤ n && n < 0xe000 then some (Text.ofChar (Char.ofNat 0xfffd))
  else some (Text.ofChar (Char.ofNat n))

def shortEscapes : List (Char × UInt8) :=
  [('a', 0x07), ('b', 0x08), ('f', 0x0c), ('n', 0x0a), ('r', 0x0d), ('t', 0x09), ('v', 0x0b),
    ('\\', 0x5c), ('"', 0x22)]

def escape? (text : List Char) : Option (Text × Nat) :=
  match text with
  | [] => none
  | c :: rest =>
    match shortEscapes.lookup c with
    | some b => some ([b], 1)
    | none =>
      if c = 'x' then (digits? 16 2 rest).map fun n => ([n.toUInt8], 3)
      else if c = 'u' then do return (← numbered? (← digits? 16 4 rest), 5)
      else if c = 'U' then do return (← numbered? (← digits? 16 8 rest), 9)
      else do
        let n ← digits? 8 3 text
        if n < 0x100 then some ([n.toUInt8], 3) else none

/-- A string behind its quote and the pieces in `done`, which are in reverse, and what follows it.
Within `depth` braces, the outermost of which stands behind a dollar sign, quotes end nothing,
escapes stay as they are and lines may end. -/
def stringFrom? (depth : Nat) (done : List Text) : List Char → Option (Text × List Char)
  | [] => none
  | c :: rest =>
    if depth = 0 && c = '\n' then none
    else if depth = 0 && c = '"' then some (done.reverse.flatten, rest)
    else if depth = 0 && c = '$' && rest.head? = some '\x7b' then
      stringFrom? 1 (utf8 "$\x7b" :: done) (rest.drop 1)
    else if c = '\\' then
      match escape? rest with
      | none => none
      | some (shown, size) =>
        let piece := if depth = 0 then shown else Text.ofChars (c :: rest.take size)
        stringFrom? depth (piece :: done) (rest.drop size)
    else
      let depth := if depth = 0 then 0 else if c = '\x7b' then depth + 1
        else if c = '\x7d' then depth - 1 else depth
      stringFrom? depth (Text.ofChar c :: done) rest
termination_by text => text.length
decreasing_by all_goals (simp only [List.length_drop, List.length_cons]; omega)

/-! ## Blocks of lines -/

def isIndent (c : Char) : Bool :=
  c == ' ' || c == '\t' || c == '\r' || c == '\x0b' || c == '\x0c'

/-- The lines of a block before the line that ends it, the indentation of that one, and what follows
it. A line shorter than `least` ends no block, and neither does one that is not ended itself. -/
def blockLines? (name : List Char) (least : Nat) :
    Nat → List Char → Option (List (List Char) × List Char × List Char)
  | 0, _ => none
  | fuel + 1, text =>
    let line := text.takeWhile (· ≠ '\n')
    let rest := text.drop (line.length + 1)
    if line.length = text.length then none
    else
      let indent := line.takeWhile isIndent
      let size := (Text.ofChars line).length
      if least ≤ size && line.drop indent.length = name then some ([], indent, rest)
      else (blockLines? name least fuel rest).map fun (lines, indent, rest) =>
        (line :: lines, indent, rest)

/-- The text of a block. With a hyphen before its name, the indentation of its last line is taken
away from all of them, if they have it. -/
def blockText (unindents : Bool) (lines : List (List Char)) (indent : List Char) : List Char :=
  let shown (lines : List (List Char)) := lines.flatMap (· ++ ['\n'])
  if !unindents then shown lines ++ indent
  else if lines.all indent.isPrefixOf then shown (lines.map (·.drop indent.length))
  else shown lines

def block? (text : List Char) : Option (Token × List Char) :=
  let unindents := text.head? = some '-'
  let text := if unindents then text.drop 1 else text
  let name := text.takeWhile fun c => isLetter c || c.isDigit
  match text.drop name.length with
  | '\n' :: rest => do
    if name = [] then none
    else
      let least := (Text.ofChars name).length + if unindents then 1 else 0
      let (lines, indent, rest) ← blockLines? name least (rest.length + 1) rest
      return (.block (Text.ofChars (blockText unindents lines indent)), rest)
  | _ => none

/-! ## Texts -/

def skipComment? (c : Char) (text : List Char) : Option (List Char) :=
  match text with
  | '/' :: rest => some (rest.dropWhile (· ≠ '\n'))
  | '*' :: rest => if c = '/' then closed? rest else some (rest.dropWhile (· ≠ '\n'))
  | rest => if c = '#' then some (rest.dropWhile (· ≠ '\n')) else none
where
  /-- What follows the end of a comment that is closed. -/
  closed? : List Char → Option (List Char)
    | '*' :: '/' :: rest => some rest
    | _ :: rest => closed? rest
    | [] => none

def next? (c : Char) (rest : List Char) : Option (Option Token × List Char) :=
  if isLetter c then
    let name := c :: rest.takeWhile isNameChar
    let shown := Text.ofChars name
    let token := if shown = utf8 "true" then .flag true
      else if shown = utf8 "false" then .flag false else .name shown
    some (some token, rest.drop (name.length - 1))
  else if c.isDigit then (number? (c :: rest)).map fun (t, rest) => (some t, rest)
  else if c = '-' && rest.head?.any Char.isDigit then
    (number? rest).map fun (t, rest) => (some (negated t), rest)
  else if c = '.' && rest.head?.any Char.isDigit then
    let digits := rest.takeWhile Char.isDigit
    let rest := rest.drop digits.length
    if rest.head?.any fun e => e == 'e' || e == 'E' then none
    else some (some (.decimal (Text.ofChars (c :: digits))), rest)
  else if c = '"' then (stringFrom? 0 [] rest).map fun (t, rest) => (some (.string t), rest)
  else if c = '<' then
    if rest.head? = some '<' then (block? (rest.drop 1)).map fun (t, rest) => (some t, rest)
    else none
  else if c = '#' || c = '/' then (skipComment? c rest).map fun rest => (none, rest)
  else if [' ', '\t', '\n', '\r'].contains c then some (none, rest)
  else if ['\x7b', '\x7d', '[', ']', ',', '=', '+', '-', '.'].contains c then
    some (some (.mark c), rest)
  else none

def tokensFrom? : Nat → List Char → Option (List Token)
  | 0, _ => none
  | _ + 1, [] => some []
  | fuel + 1, c :: rest => do
    let (found, rest) ← next? c rest
    return found.toList ++ (← tokensFrom? fuel rest)

def withNewlines : Text → Text
  | 0x0d :: 0x0a :: rest => Byte.newline :: withNewlines rest
  | b :: rest => b :: withNewlines rest
  | [] => []

/-- The tokens of a text. It has to be UTF-8, and two characters may not be in it. -/
def tokens? (text : Text) : Option (List Token) :=
  let found := Text.chars (withNewlines text)
  if found.any fun d => d.isBad || d.char.toNat = 0 || d.char.toNat = 0xe123 then none
  else tokensFrom? (found.length + 1) (found.map (·.char))

end SvgAssist.Config.Hcl
