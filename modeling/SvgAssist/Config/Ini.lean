import SvgAssist.Config.Properties
import SvgAssist.Text.Blank

/-!
# Settings in INI files

Sections of keys and values, one pair to a line. Keys in front of the first section belong to the
section `DEFAULT`. A value may take other values in as `%(name)s`.
-/

namespace SvgAssist.Config.Ini

structure Section where
  name : Text
  pairs : List (Text × Text)
deriving DecidableEq, Repr

abbrev Sections := List Section

def defaultName : Text := utf8 "DEFAULT"

namespace Sections

def find? (name : Text) (ss : Sections) : Option Section := List.find? (·.name == name) ss

def add (name : Text) (ss : Sections) : Sections :=
  if (ss.find? name).isSome then ss else ss ++ [⟨name, []⟩]

def put (name key value : Text) (ss : Sections) : Sections :=
  ss.map fun s =>
    if s.name = name then { s with pairs := Properties.Pairs.put key value s.pairs } else s

end Sections

/-! ## Lines -/

def isCommentMark (b : UInt8) : Bool := b == 0x23 || b == 0x3b

def isDelimiter (b : UInt8) : Bool := b == Byte.equals || b == Byte.colon

def splitLine (text : Text) : Text × Text :=
  let line := text.takeWhile (· ≠ Byte.newline)
  (text.take (line.length + 1), text.drop (line.length + 1))

def splitLast? (mark text : Text) : Option (Text × Text) :=
  (Text.indexOf mark.reverse text.reverse).map fun size =>
    (text.take (text.length - size - mark.length), text.drop (text.length - size))

def keyQuote (line : Text) : Text :=
  let triple := utf8 "\"\"\""
  if 6 < line.length && triple.isPrefixOf line then triple
  else if line.head? = some Byte.doubleQuote || line.head? = some 0x60 then line.take 1
  else []

def key? (line : Text) : Option (Text × Text) :=
  let mark := keyQuote line
  if mark = [] then
    let name := line.takeWhile (!isDelimiter ·)
    if name = [] || name.length = line.length then none
    else some (Text.trim name, line.drop (name.length + 1))
  else do
    let body := line.drop mark.length
    let size ← Text.indexOf mark body
    let behind := body.drop (size + mark.length)
    let gap := behind.takeWhile (!isDelimiter ·)
    if gap.length = behind.length then none
    else some (Text.trim (body.take size), behind.drop (gap.length + 1))

def untilMark? (mark value : Text) : Nat → Text → Option (Text × Text)
  | 0, _ => none
  | fuel + 1, text =>
    let (line, rest) := splitLine text
    match splitLast? mark line with
    | some (before, _) => some (value ++ before, rest)
    | none => if rest = [] then none else untilMark? mark (value ++ line) fuel rest

def continued (value : Text) : Nat → Text → Text × Text
  | 0, text => (value, text)
  | fuel + 1, text =>
    let (line, rest) := splitLine text
    let next := Text.trim line
    if next.getLast? = some Byte.backslash then continued (value ++ next.dropLast) fuel rest
    else (value ++ next, rest)

def isQuotedBy (quote : UInt8) (text : Text) : Bool :=
  2 ≤ text.length && text.head? == some quote && text.getLast? == some quote &&
    text.count quote == 2

def valueQuote (line : Text) : Text :=
  let triple := utf8 "\"\"\""
  if 3 < line.length && triple.isPrefixOf line then triple
  else if line.head? = some 0x60 then line.take 1
  else []

/-- The value that a line ends with, and what follows its last line; `rest` follows the line. -/
def value? (line rest : Text) : Option (Text × Text) :=
  let line := Text.trimStart line
  let mark := valueQuote line
  if mark ≠ [] then
    let body := line.drop mark.length
    match splitLast? mark body with
    | some (inner, _) => some (inner, rest)
    | none => if rest = [] then none else untilMark? mark body (rest.length + 1) rest
  else
    let shown := Text.trim line
    if shown.getLast? = some Byte.backslash then
      some (continued shown.dropLast (rest.length + 1) rest)
    else
      let plain := Text.trim (shown.takeWhile (!isCommentMark ·))
      if isQuotedBy Byte.singleQuote plain || isQuotedBy Byte.doubleQuote plain then
        some ((plain.drop 1).dropLast, rest)
      else some (plain, rest)

/-! ## Files -/

structure Progress where
  sections : Sections
  current : Text
  count : Nat

def lines? (p : Progress) : Nat → Text → Option Sections
  | 0, _ => none
  | _ + 1, [] => some p.sections
  | fuel + 1, text =>
    let (line, rest) := splitLine text
    match Text.trimStart line with
    | [] => lines? p fuel rest
    | b :: more =>
      if isCommentMark b then lines? p fuel rest
      else if b = 0x5b then
        match splitLast? (utf8 "]") more with
        | none => none
        | some (name, _) =>
          if name = [] then none
          else lines? ⟨p.sections.add name, name, 1⟩ fuel rest
      else do
        let (key, line) ← key? (b :: more)
        let (value, rest) ← value? line rest
        if key = [] then none
        else if key = utf8 "-" then
          let key := utf8 "#" ++ Text.ofNat p.count
          lines? { p with
            sections := p.sections.put p.current key value
            count := p.count + 1 } fuel rest
        else lines? { p with sections := p.sections.put p.current key value } fuel rest

def withoutMark (text : Text) : Text :=
  if [0xef, 0xbb, 0xbf].isPrefixOf text then text.drop 3
  else if [0xfe, 0xff].isPrefixOf text || [0xff, 0xfe].isPrefixOf text then text.drop 2
  else text

def sections? (text : Text) : Option Sections :=
  let text := withoutMark text
  lines? ⟨[⟨defaultName, []⟩], defaultName, 1⟩ (text.length + 1) text

/-! ## References -/

/-- The value of a key in a section, or in one that its name belongs to: the name without its last
part. A name has fewer than `fuel` parts. -/
def lookup? (ss : Sections) : Nat → Text → Text → Option (Text × Text)
  | 0, _, _ => none
  | fuel + 1, name, key =>
    match (ss.find? name).bind (·.pairs.lookup key) with
    | some value => some (name, value)
    | none =>
      match splitLast? (utf8 ".") name with
      | none => none
      | some (outer, _) =>
        lookup? ss fuel (if outer = [] then defaultName else outer) key

/-- The value that a reference in the key of a section stands for. A key does not stand for itself,
but for the one of that name in the default section. -/
def resolve? (ss : Sections) (name key reference : Text) : Option Text :=
  let find (name : Text) := lookup? ss (name.length + 1) name reference
  match find name with
  | some (owner, value) =>
    if owner = name && key = reference then (find defaultName).map (·.2) else some value
  | none => (find defaultName).map (·.2)

def reference? : Text → Option (Text × Text)
  | [] => none
  | b :: rest =>
    let inner := (rest.drop 1).takeWhile (· ≠ 0x29)
    if b = 0x25 && rest.head? = some 0x28 && inner ≠ [] &&
        (utf8 ")s").isPrefixOf (rest.drop (1 + inner.length)) then
      some (inner, (b :: rest).take (inner.length + 4))
    else reference? rest

def replaceAll (old new : Text) : Text → Text
  | [] => []
  | b :: rest =>
    if old.isPrefixOf (b :: rest) then new ++ replaceAll old new (rest.drop (old.length - 1))
    else b :: replaceAll old new rest
termination_by text => text.length
decreasing_by all_goals (simp only [List.length_drop, List.length_cons]; omega)

def maxReferences : Nat := 99

def expand (ss : Sections) (name key : Text) : Nat → Text → Text
  | 0, value => value
  | fuel + 1, value =>
    match reference? value with
    | none => value
    | some (reference, whole) =>
      match resolve? ss name key reference with
      | none => value
      | some new => expand ss name key fuel (replaceAll whole new value)

def table? (text : Text) : Option Entries := do
  let ss ← sections? text
  return ss.foldl (fun es s =>
    let names := Properties.parts s.name
    s.pairs.foldl (fun es (key, value) =>
      es.putAt names key (.text (expand ss s.name key maxReferences value))) es) []

end SvgAssist.Config.Ini
