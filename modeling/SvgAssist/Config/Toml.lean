import SvgAssist.Config.Toml.Scalar
import SvgAssist.Config.Toml.Table

/-!
# Settings in TOML

A file is read line by line: a key and its value, or the heading of a table or of a series of
tables. Whatever is wrong refuses the whole.
-/

namespace SvgAssist.Config.Toml

def isKeyByte (b : UInt8) : Bool :=
  Byte.isLetter b || Byte.isDigit b || b == Byte.hyphen || b == Byte.underscore

def keyPart? (text : Text) : Option (Text × Text) :=
  match text with
  | [] => none
  | b :: _ =>
    if b = Byte.doubleQuote || b = Byte.singleQuote then lineString? text
    else
      let name := text.takeWhile isKeyByte
      if name = [] then none else some (name, text.drop name.length)

/-- The parts of a key between its dots, behind those in `seen`, and what follows the key. A key has
fewer than `fuel` parts. -/
def keyFrom? (seen : List Text) : Nat → Text → Option (List Text × Text)
  | 0, _ => none
  | fuel + 1, text => do
    let (part, rest) ← keyPart? text
    match skipGap rest with
    | Byte.dot :: rest => keyFrom? (seen ++ [part]) fuel (skipGap rest)
    | rest => return (seen ++ [part], rest)

def key? (text : Text) : Option (List Text × Text) := keyFrom? [] (text.length + 1) text

def skipComment? (text : Text) : Option Text :=
  match text with
  | 0x23 :: rest =>
    let line := rest.takeWhile (· ≠ Byte.newline)
    let comment := Text.withoutReturn line
    if isClean comment && !comment.contains Byte.carriageReturn &&
        (comment.length = line.length || line.length < rest.length) then
      some (rest.drop line.length)
    else none
  | text => some text

def skipBreak? (text : Text) : Option Text := (after? "\n" text).or (after? "\r\n" text)

def skipLines? : Nat → Text → Option Text
  | 0, _ => none
  | fuel + 1, text => do
    let rest ← skipComment? (skipGap text)
    match rest with
    | Byte.newline :: _ | Byte.carriageReturn :: _ => skipLines? fuel (← skipBreak? rest)
    | rest => return rest

def skipSpace? (text : Text) : Option Text := skipLines? (text.length + 1) text

def plainValue? (text : Text) : Option (Setting × Text) :=
  match text with
  | [] => none
  | b :: _ =>
    if b = Byte.doubleQuote || b = Byte.singleQuote then
      (string? text).map fun (t, rest) => (.text t, rest)
    else if b = 0x74 then (after? "true" text).map fun rest => (.flag true, rest)
    else if b = 0x66 then (after? "false" text).map fun rest => (.flag false, rest)
    else if isDateOrTime text then dateOrTime? text
    else number? text

mutual

/-- A value, and what follows it. The values inside of each other and next to each other are fewer
than the first argument. -/
def value? : Nat → Text → Option (Setting × Text)
  | 0, _ => none
  | fuel + 1, text =>
    match text with
    | 0x5b :: rest => items? fuel true rest
    | 0x7b :: rest => pairs? fuel [] true rest
    | text => plainValue? text

def items? : Nat → Bool → Text → Option (Setting × Text)
  | 0, _, _ => none
  | fuel + 1, isFirst, text => do
    match ← skipSpace? text with
    | 0x5d :: rest => return (.list, rest)
    | 0x2c :: rest =>
      if isFirst then none
      else
        match ← skipSpace? rest with
        | 0x5d :: rest => return (.list, rest)
        | rest =>
          let (_, rest) ← value? fuel rest
          items? fuel false rest
    | rest =>
      if !isFirst then none
      else
        let (_, rest) ← value? fuel rest
        items? fuel false rest

def pairs? : Nat → Tree → Bool → Text → Option (Setting × Text)
  | 0, _, _, _ => none
  | fuel + 1, tree, isFirst, text => do
    match skipGap text with
    | 0x7d :: rest => return (.table (settings tree), rest)
    | rest =>
      let rest ← if isFirst then some rest else (after? "," rest).map skipGap
      let (key, rest) ← key? rest
      let (value, rest) ← value? fuel (skipGap (← after? "=" rest))
      pairs? fuel (← tree.assign? value key) false rest

end

structure File where
  tree : Tree
  heading : List Text

namespace File

def openHeading? (f : File) (line : Text) : Option (File × Text) :=
  let tree := closeUnder f
  match line with
  | 0x5b :: 0x5b :: rest => do
    let (path, rest) ← key? (skipGap rest)
    return (⟨← (← tree).openSeries? path, path⟩, ← after? "]]" rest)
  | rest => do
    let (path, rest) ← key? (skipGap (rest.drop 1))
    return (⟨← (← tree).openTable? path, path⟩, ← after? "]" rest)
where
  closeUnder (f : File) : Option Tree := f.tree.inside? (fun t => some (closeAll t)) f.heading

def assign? (f : File) (line : Text) : Option (File × Text) := do
  let (key, rest) ← key? line
  let (value, rest) ← value? (2 * line.length + 2) (skipGap (← after? "=" rest))
  return ({ f with tree := ← f.tree.inside? (·.assign? value key) f.heading }, rest)

def line? (f : File) (text : Text) : Option (File × Text) :=
  let rest := skipGap text
  match rest with
  | [] => some (f, [])
  | b :: _ => do
    if b = 0x23 then return (f, ← skipComment? rest)
    else if b = Byte.newline || b = Byte.carriageReturn then return (f, rest)
    else
      let (f, rest) ← if b = 0x5b then f.openHeading? rest else f.assign? rest
      return (f, ← skipComment? (skipGap rest))

def lines? (f : File) : Nat → Text → Option File
  | 0, _ => none
  | fuel + 1, text => do
    let (f, rest) ← f.line? text
    if rest = [] then return f
    else
      let rest ← skipBreak? rest
      if rest = [] then return f else f.lines? fuel rest

end File

def table? (text : Text) : Option Entries := do
  return settings (← File.lines? ⟨[], []⟩ (text.length + 1) text).tree

end SvgAssist.Config.Toml
