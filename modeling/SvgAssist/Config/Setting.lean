import SvgAssist.Number.Double
import SvgAssist.Text.Char

/-!
# Settings

What a configuration file says, whatever its format: a tree of tables whose keys match in any case.
Lists are told apart from other values, but nothing asks for what is in them.
-/

namespace SvgAssist.Config

open Number (Double)

inductive Setting where
  | null
  | text (value : Text)
  | int (value : Int)
  | float (value : Double)
  | flag (value : Bool)
  | time (shown : Text)
  | list
  | table (entries : List (Text × Setting))
deriving Inhabited

/-- The entries of a table. Of entries with one key the last one counts. -/
abbrev Entries := List (Text × Setting)

namespace Setting

def toText : Setting → Text
  | .text value => value
  | .int value => Text.ofInt value
  | .float value => value.positional
  | .flag true => utf8 "true"
  | .flag false => utf8 "false"
  | .time shown => shown
  | .null | .list | .table _ => []

def isTable : Setting → Bool
  | .table _ => true
  | _ => false

def entries : Setting → Entries
  | .table es => es
  | _ => []

def entry? (key : Text) (s : Setting) : Option Setting :=
  match s.entries.reverse.lookup key with
  | some .null | none => none
  | some value => some value

end Setting

def Entries.put (key : Text) (value : Setting) (es : Entries) : Entries :=
  es.filter (·.1 != key) ++ [(key, value)]

/-- Sets the entry with that key in a table inside of tables. A value that stands in the way of a
table gives way to it. -/
def Entries.putAt (path : List Text) (key : Text) (value : Setting) (es : Entries) : Entries :=
  match path with
  | [] => es.put key value
  | outer :: path =>
    let inner : Entries := ((es.lookup outer).map Setting.entries).getD []
    let changed := inner.putAt path key value
    if (es.lookup outer).any Setting.isTable then
      es.map fun (k, v) => if k = outer then (k, .table changed) else (k, v)
    else es.put outer (.table changed)

/-- The lower-case form of a letter of a key. Apart from the ASCII letters, two letters have one
that is an ASCII letter. -/
def lowerLetter (c : Char) : Char :=
  if c.toNat = 0x130 then 'i' else if c.toNat = 0x212a then 'k' else c.toLower

def lowerKey (key : Text) : Text :=
  (Text.chars key).flatMap fun d => Text.ofChar (lowerLetter d.char)

mutual

/-- The value with its keys in lower case. A key that was not in lower case before it takes
precedence over one that was. -/
def Setting.folded : Setting → Setting
  | .table es => .table (settledEntries (foldedEntries es))
  | other => other

def foldedEntries : List (Text × Setting) → List (Bool × Text × Setting)
  | [] => []
  | (key, value) :: es =>
    (lowerKey key != key, lowerKey key, Setting.folded value) :: foldedEntries es

def settledEntries (es : List (Bool × Text × Setting)) : List (Text × Setting) :=
  (es.filter (!·.1) ++ es.filter (·.1)).map (·.2)

end

end SvgAssist.Config
