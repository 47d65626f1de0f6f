import SvgAssist.Config.Setting

/-!
# Settings in property files

A file of keys and values, one pair to a line, where a backslash at the end of a line joins it to
the next one. A value may refer to others, and to variables of the environment, as `${name}`. Dots
in keys make tables.
-/

namespace SvgAssist.Config.Properties

abbrev Pairs := List (Text × Text)

namespace Pairs

def put (key value : Text) (ps : Pairs) : Pairs :=
  if (ps.lookup key).isSome then ps.map fun (k, v) => if k = key then (k, value) else (k, v)
  else ps ++ [(key, value)]

end Pairs

/-! ## Reading -/

def isGap (c : Char) : Bool := c == ' ' || c == '\x0c' || c == '\t'

def isBreak (c : Char) : Bool := c == '\n' || c == '\r'

def endsKey (c : Char) : Bool := isGap c || isBreak c || c == ':' || c == '='

def hex4? (digits : List Char) : Option Nat :=
  if digits.length < 4 then none
  else digits.foldlM (fun n c =>
    if c.toNat < 0x80 then (Byte.hexValue? c.toNat.toUInt8).map (n * 16 + ·) else none) 0

def escape? : List Char → Option (Char × Nat)
  | [] => none
  | 'u' :: rest => (hex4? (rest.take 4)).map fun n =>
    (if 0xd800 ≤ n && n < 0xe000 then Char.ofNat 0xfffd else Char.ofNat n, 5)
  | 'f' :: _ => some ('\x0c', 1)
  | 'n' :: _ => some ('\n', 1)
  | 'r' :: _ => some ('\r', 1)
  | 't' :: _ => some ('\t', 1)
  | c :: _ => some (c, 1)

def keyFrom? (seen : List Char) : List Char → Option (List Char × List Char)
  | [] => some (seen.reverse, [])
  | c :: rest =>
    if c = '\\' then
      match escape? rest with
      | none => none
      | some (e, size) => keyFrom? (e :: seen) (rest.drop size)
    else if endsKey c then some (seen.reverse, c :: rest)
    else keyFrom? (c :: seen) rest
termination_by text => text.length
decreasing_by all_goals (simp only [List.length_drop, List.length_cons]; omega)

def valueFrom? (seen : List Char) : List Char → Option (List Char × List Char)
  | [] => some (seen.reverse, [])
  | c :: rest =>
    if c = '\\' then
      if rest.head?.any isBreak then
        let blanks := (rest.drop 1).takeWhile isGap
        valueFrom? seen (rest.drop (1 + blanks.length))
      else
        match escape? rest with
        | none => none
        | some (e, size) => valueFrom? (e :: seen) (rest.drop size)
    else if isBreak c then some (seen.reverse, rest)
    else valueFrom? (c :: seen) rest
termination_by text => text.length
decreasing_by all_goals (simp only [List.length_drop, List.length_cons]; omega)

def skipSeparator (text : List Char) : List Char :=
  match text.dropWhile isGap with
  | c :: rest => if c = ':' || c = '=' then rest.dropWhile isGap else c :: rest
  | [] => []

def pairsFrom? (ps : Pairs) : Nat → List Char → Option Pairs
  | 0, _ => none
  | fuel + 1, text =>
    match text.dropWhile fun c => isGap c || isBreak c with
    | [] => some ps
    | c :: rest =>
      if c = '#' || c = '!' then pairsFrom? ps fuel (rest.dropWhile (!isBreak ·))
      else do
        let (key, rest) ← keyFrom? [] (c :: rest)
        if key = [] then none
        else
          let (value, rest) ← valueFrom? [] (skipSeparator rest)
          pairsFrom? (ps.put (Text.ofChars key) (Text.ofChars value)) fuel rest

def pairs? (text : Text) : Option Pairs :=
  let chars := (Text.chars text).map (·.char)
  pairsFrom? [] (chars.length + 1) chars

/-! ## References -/

/-- References may be inside of each other to this depth. -/
def maxDepth : Nat := 64

def maxReferences : Nat := 100000

/-- What comes before a reference in a text, its name, and what comes behind it. There is none in a
text without a mark, and a mark that is never closed refuses the text. -/
def splitReference? (text : Text) : Option (Option (Text × Text × Text)) :=
  match Text.indexOf (utf8 "$\x7b") text with
  | none => some none
  | some start =>
    let inner := text.drop (start + 2)
    match Text.indexOf (utf8 "\x7d") inner with
    | none => none
    | some size => some (some (text.take start, inner.take size, inner.drop (size + 1)))

variable {m : Type → Type} [Monad m]

def replace (resolve : Text → OptionT m Text) : Nat → Text → OptionT m Text
  | 0, _ => failure
  | fuel + 1, text => do
    match ← OptionT.mk (return splitReference? text) with
    | none => return text
    | some (before, name, behind) => replace resolve fuel (before ++ (← resolve name) ++ behind)

/-- The text of a value with its references replaced. `names` has the keys that led to it: none of
them may be referred to again. -/
def expand (getVar? : Text → m (Option Text)) (ps : Pairs) :
    Nat → List Text → Text → OptionT m Text
  | 0, _, _ => failure
  | depth + 1, names, text =>
    replace (fun name =>
      if names.contains name then failure
      else do
        let value ← match ps.lookup name with
          | some value => pure value
          | none => (·.getD []) <$> OptionT.lift (getVar? name)
        expand getVar? ps depth (name :: names) value) maxReferences text

/-! ## Tables -/

def parts (key : Text) : List Text := Text.pieces (· == Byte.dot) key

def table? (getVar? : Text → m (Option Text)) (text : Text) : OptionT m Entries := do
  let ps ← OptionT.mk (return pairs? text)
  ps.foldlM (fun es (key, value) => do
    let shown ← expand getVar? ps maxDepth [key] value
    let path := parts key
    return es.putAt path.dropLast (lowerKey (path.getLastD [])) (.text shown)) []

end SvgAssist.Config.Properties
