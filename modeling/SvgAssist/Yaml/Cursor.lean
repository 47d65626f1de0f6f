import SvgAssist.Yaml.Source

/-!
# A cursor over characters

The characters that are still to be read, with the place they stand at, and the number of line ends
passed since the last character that is not blank. `Scan` is a step that moves a cursor.

Blocks are read as they are needed: a step says how many characters it is going to look at, and
trouble shows when they are not there. Looking ahead for a comment does not fail, but leaves the
cursor spoilt.
-/

namespace SvgAssist.Yaml

def isBlank (c : Char) : Bool := c == ' ' || c == '\t'

def isBreak (c : Char) : Bool :=
  c == '\r' || c == '\n' || c.toNat == 0x85 || c.toNat == 0x2028 || c.toNat == 0x2029

def isWord (c : Char) : Bool := c.isAlphanum || c == '-' || c == '_'

def isByteOrderMark (c : Char) : Bool := c.toNat == 0xfeff

def hexValue? (ch : Char) : Option Nat :=
  if ch.toNat < 0x80 then Byte.hexValue? ch.toNat.toUInt8 else none

def breakText (c : Char) : Char :=
  if c.toNat == 0x2028 || c.toNat == 0x2029 then c else '\n'

/-- A place in a text of `size` characters, which bounds every loop over it. `loaded` characters
have been read in, counted from the start of the text, `blocks` are the ends of the blocks that are
to come, and `trouble` is what is wrong behind the last of them. `markFirst` is whether a byte order
mark stood at the cursor when a block was last asked for. -/
structure Cursor where
  size : Nat
  rest : List Char
  mark : Mark
  newlines : Nat
  loaded : Nat
  blocks : List Nat
  trouble : Option Problem
  markFirst : Bool
  spoilt : Bool
deriving Inhabited

namespace Cursor

def start (source : Source) : Cursor where
  size := source.chars.length
  rest := source.chars
  mark := ⟨0, 0, 0⟩
  newlines := 0
  loaded := 0
  blocks := source.blocks
  trouble := source.trouble
  markFirst := false
  spoilt := false

def at? (c : Cursor) (n : Nat) : Option Char := c.rest[n]?

def is (c : Cursor) (test : Char → Bool) (n : Nat) : Bool := (c.at? n).any test

def ends (c : Cursor) (n : Nat) : Bool := (c.at? n).all isBreak

def blankOrEnds (c : Cursor) (n : Nat) : Bool := (c.at? n).all fun ch => isBlank ch || isBreak ch

def skip (c : Cursor) : Cursor :=
  { c with
    rest := c.rest.drop 1
    mark := ⟨c.mark.index + 1, c.mark.line, c.mark.column + 1⟩
    newlines := if c.is isBlank 0 then c.newlines else 0 }

def skipMany : Nat → Cursor → Cursor
  | 0, c => c
  | n + 1, c => skipMany n c.skip

/-- Moves past a line end, if there is one. A carriage return and a newline are one. -/
def skipLine (c : Cursor) : Cursor :=
  let past (n : Nat) : Cursor :=
    { c with
      rest := c.rest.drop n
      mark := ⟨c.mark.index + n, c.mark.line + 1, 0⟩
      newlines := c.newlines + 1 }
  if c.is (· == '\r') 0 && c.is (· == '\n') 1 then past 2
  else if c.is isBreak 0 then past 1
  else c

/-- Whether `---` or `...` stands here on its own, at the start of a line. -/
def isDocumentIndicator (c : Cursor) : Bool :=
  c.mark.column == 0 &&
    (c.rest.take 3 == ['-', '-', '-'] || c.rest.take 3 == ['.', '.', '.']) && c.blankOrEnds 3

/-- Reads in blocks until `n` characters from the cursor on are there. At the end of the text one
more character counts as there. With trouble, the characters before it are there. -/
def load (n : Nat) (c : Cursor) : Cursor × Option Problem :=
  let wanted := c.mark.index + n
  if wanted ≤ c.loaded then (c, none)
  else
    let c := { c with markFirst := c.is isByteOrderMark 0 }
    match c.blocks.dropWhile (· < wanted) with
    | last :: more => ({ c with loaded := last, blocks := more }, none)
    | [] =>
      match c.trouble with
      | none => ({ c with loaded := c.blocks.getLast?.getD c.loaded + 1, blocks := [] }, none)
      | some problem =>
        ({ c with loaded := c.mark.index + c.rest.length, blocks := [], spoilt := true },
          some problem)

end Cursor

abbrev Scan (α : Type) := StateT Cursor (Except SyntaxError) α

namespace Scan

def need (n : Nat) : Scan Unit := do
  match (← get).load n with
  | (c, none) => set c
  | (_, some problem) => throw ⟨problem, 0⟩

/-- Looks for `n` characters from the cursor on, and tells whether they are there. -/
def reach (n : Nat) : Scan Bool := do
  let (c, problem) := (← get).load n
  set c
  return problem.isNone

def skip : Scan Unit := modify Cursor.skip

def skipMany (n : Nat) : Scan Unit := modify (Cursor.skipMany n)

def skipLine : Scan Unit := do
  need 2
  modify Cursor.skipLine

def fail {α : Type} (context : Mark) (problem : Problem) : Scan α := do
  throw (tokenError context (← get).mark problem)

def takeFrom (test : Char → Bool) (taken : List Char) : Nat → Scan (List Char)
  | 0 => return taken.reverse
  | fuel + 1 => do
    need 1
    match (← get).at? 0 with
    | some ch =>
      if test ch then
        skip
        takeFrom test (ch :: taken) fuel
      else return taken.reverse
    | none => return taken.reverse

def takeWhile (test : Char → Bool) : Scan (List Char) := do takeFrom test [] ((← get).size + 1)

def skipBlanks : Scan Unit := discard (takeWhile isBlank)

def skipToBreak : Scan Unit := discard (takeWhile (!isBreak ·))

def skipTo (index : Nat) : Nat → Scan Unit
  | 0 => return
  | fuel + 1 => do
    need 1
    let c ← get
    if index ≤ c.mark.index then return
    else
      if c.ends 0 then skipLine else skip
      skipTo index fuel

end Scan

end SvgAssist.Yaml
