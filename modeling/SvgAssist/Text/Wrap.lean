import SvgAssist.Text.Blank
import SvgAssist.Text.Width

/-!
# Wrapping and indenting

Documentation is laid out for a terminal in two passes. `wrap` breaks lines at white space and after
hyphens, so that they keep to a limit; a word that is longer than the limit stays whole, and white
space counts by its bytes. `indent` puts blanks before every line. Escape sequences of the terminal
take no width and pass through both; blanks are never drawn in a colour that such a sequence set.
-/

namespace SvgAssist.Text

def escapeChar : Char := Char.ofNat 0x1b

def endsEscape (c : Char) : Bool := c.isAlpha || c = '@'

/-- A text that is being wrapped: what is laid out, in reverse; the white space and the word that
come next; and the width of the line so far. -/
structure Wrapping where
  done : List Text
  space : Text
  word : List Text
  wordWidth : Nat
  lineWidth : Nat
  escaping : Bool

namespace Wrapping

def start : Wrapping := ⟨[], [], [], 0, 0, false⟩

def put (w : Wrapping) (text : Text) : Wrapping := { w with done := text :: w.done }

def addSpace (w : Wrapping) : Wrapping :=
  { w.put w.space with lineWidth := w.lineWidth + w.space.length, space := [] }

def addWord (w : Wrapping) : Wrapping :=
  if w.word = [] then w
  else
    let w := w.addSpace
    { w.put w.word.reverse.flatten with
      lineWidth := w.lineWidth + w.wordWidth, word := [], wordWidth := 0 }

def breakLine (w : Wrapping) : Wrapping :=
  { w.put [Byte.newline] with lineWidth := 0, space := [] }

/-- The end of a line of the text itself. White space before it is kept where it fits. -/
def endLine (limit : Nat) (w : Wrapping) : Wrapping :=
  let w :=
    if w.word ≠ [] then w
    else if limit < w.lineWidth + w.space.length then { w with lineWidth := 0, space := [] }
    else { w.put w.space with space := [] }
  w.addWord.breakLine

def step (limit : Nat) (w : Wrapping) (c : Char) : Wrapping :=
  if c = escapeChar then { w with word := ofChar c :: w.word, escaping := true }
  else if w.escaping then
    { w with word := ofChar c :: w.word, escaping := !endsEscape c }
  else if c = '\n' then w.endLine limit
  else if isBlank c then
    let w := w.addWord
    { w with space := w.space ++ ofChar c }
  else if c = '-' then w.addSpace.addWord.put [Byte.hyphen]
  else
    let w := { w with word := ofChar c :: w.word, wordWidth := w.wordWidth + charWidth c }
    if limit < w.lineWidth + w.space.length + w.wordWidth && w.wordWidth < limit then w.breakLine
    else w

end Wrapping

/-- The text with its lines broken at a limit. White space at its end is dropped. -/
def wrap (limit : Nat) (text : Text) : Text :=
  let w := (chars text).foldl (fun (w : Wrapping) d => w.step limit d.char) Wrapping.start
  w.addWord.done.reverse.flatten

/-- A text that is being indented. `escaping` is about the line, and `held` is an escape sequence
that has not ended, in reverse. `colors` are the sequences that have set a colour, and `changed` is
set when one may have. -/
structure Indenting where
  done : List Text
  inLine : Bool
  escaping : Bool
  held : Option (List Text)
  colors : Text
  changed : Bool

namespace Indenting

def start : Indenting := ⟨[], false, false, none, [], false⟩

def put (s : Indenting) (text : Text) : Indenting := { s with done := text :: s.done }

def plainSequence : Text := 0x1b :: utf8 "[0m"

/-- Writes one character through, holding back an escape sequence until it ends. -/
def pass (s : Indenting) (c : Char) : Indenting :=
  if c = escapeChar then
    { s with held := some (ofChar c :: s.held.getD []), changed := true }
  else
    match s.held with
    | none => s.put (ofChar c)
    | some held =>
      if !endsEscape c then { s with held := some (ofChar c :: held) }
      else
        let sequence := (ofChar c :: held).reverse.flatten
        let s := { s.put sequence with held := none }
        if plainSequence.isPrefixOf sequence then { s with colors := [], changed := false }
        else if c = 'm' then { s with colors := s.colors ++ sequence }
        else s

def addBlanks (count : Nat) (s : Indenting) : Indenting :=
  let s := if s.changed then s.put plainSequence else s
  { (s.put (spaces count)).put s.colors with inLine := true }

def step (count : Nat) (s : Indenting) (c : Char) : Indenting :=
  if c = escapeChar then pass { s with escaping := true } c
  else if s.escaping then pass { s with escaping := !c.isAlpha } c
  else
    let s := if s.inLine then s else s.addBlanks count
    pass { s with inLine := c ≠ '\n' } c

end Indenting

def indent (count : Nat) (text : Text) : Text :=
  let s := (chars text).foldl (fun (s : Indenting) d => s.step count d.char) Indenting.start
  s.done.reverse.flatten

def pageWidth : Nat := 72

def paragraph (count : Nat) (text : Text) : Text :=
  withoutTail [Byte.newline] (indent count (wrap pageWidth (trim text)))

end SvgAssist.Text
