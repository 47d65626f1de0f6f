import SvgAssist.Completion.Complete
import SvgAssist.Text.Blank

/-!
# The scratchpad

A document that is typed line by line, with completion at its end. A line that begins with a colon
is a command; every other line is appended to the document.
-/

namespace SvgAssist

open Completion

structure Scratchpad where
  catalog : Grammar.Catalog
  budget : Markup.Budget
  lines : List Text

inductive Scratchpad.Entry where
  | markup (line : Text)
  | complete
  | display
  | reset
  | help
  | quit
  | unknown (command : Text)
deriving DecidableEq, Repr

namespace Scratchpad

def start (c : Grammar.Catalog) (budget : Markup.Budget) : Scratchpad := ⟨c, budget, []⟩

def text (s : Scratchpad) : Text := [Byte.newline].intercalate s.lines

def append (s : Scratchpad) (line : Text) : Scratchpad := { s with lines := s.lines ++ [line] }

def completeAfter (s : Scratchpad) (pending : Text) : List Candidate :=
  let text := (s.append pending).text
  complete s.catalog s.budget text (Text.positionAt text text.length)

def completeAtEnd (s : Scratchpad) : List Candidate :=
  match s.lines.getLast? with
  | none => []
  | some last => { s with lines := s.lines.dropLast }.completeAfter last

def listing (candidates : List Candidate) : Text :=
  if candidates = [] then utf8 "no completions\n"
  else candidates.flatMap fun c =>
    c.label ++ (if c.detail = [] then [] else utf8 "\t" ++ c.detail) ++ utf8 "\n"

def Entry.ofLine (line : Text) : Entry :=
  if line.head? ≠ some Byte.colon then .markup line
  else
    let command := Text.trim line
    if command = utf8 ":quit" || command = utf8 ":q" then .quit
    else if command = utf8 ":show" then .display
    else if command = utf8 ":reset" then .reset
    else if command = utf8 ":help" then .help
    else if command = utf8 ":complete" then .complete
    else .unknown command

def helpText : Text :=
  utf8 "Type SVG markup; each line is appended to the document.\n" ++
  utf8 "Press TAB to complete after '<', a space inside a tag, '=' or '\"'.\n\n" ++
  utf8 "  :complete  list completions at the end of the document\n" ++
  utf8 "  :show      print the document\n" ++
  utf8 "  :reset     clear the document\n" ++
  utf8 "  :help      show this message\n" ++
  utf8 "  :quit      leave the repl\n"

/-- The scratchpad after a line, and what is printed for it. There is none after it was left. -/
def enter (s : Scratchpad) (line : Text) : Option Scratchpad × Text :=
  match Entry.ofLine line with
  | .markup line => (some (s.append line), [])
  | .complete => (some s, listing s.completeAtEnd)
  | .display => (some s, s.text ++ utf8 "\n")
  | .reset => (some { s with lines := [] }, [])
  | .help => (some s, helpText)
  | .quit => (none, [])
  | .unknown command => (some s, utf8 "unknown command " ++ command ++ utf8 " (try :help)\n")

def enterAll (s : Scratchpad) : List Text → Text
  | [] => []
  | line :: rest =>
    match s.enter line with
    | (none, printed) => printed
    | (some s, printed) => printed ++ s.enterAll rest

/-- The lines that are typed, read as characters. A last line need not end in a newline. -/
def inputLines (input : Text) : List Text :=
  let pieces := Text.lines (Text.repaired input)
  if pieces.getLast? = some [] then pieces.dropLast else pieces

def run (s : Scratchpad) (input : Text) : Text := s.enterAll (inputLines input)

def traceAfter (s : Scratchpad) (pending : Text) : List TraceSpan :=
  let text := (s.append pending).text
  Completion.trace s.catalog s.budget text (Text.positionAt text text.length)

def traceAtEnd (s : Scratchpad) : List TraceSpan :=
  match s.lines.getLast? with
  | none => []
  | some last => { s with lines := s.lines.dropLast }.traceAfter last

def traceAll (s : Scratchpad) : List Text → List TraceSpan
  | [] => []
  | line :: rest =>
    let spans := if Entry.ofLine line = .complete then s.traceAtEnd else []
    match s.enter line with
    | (none, _) => spans
    | (some s, _) => spans ++ s.traceAll rest

def trace (s : Scratchpad) (input : Text) : List TraceSpan := s.traceAll (inputLines input)

/-! ## Completing a partial name -/

def isNameChar (c : Char) : Bool :=
  c.isAlphanum || c = '-' || c = '_' || c = ':' || c = '.'

/-- What a candidate types on a single line: all of it, or only its label where it takes several
lines or does not begin with the label. -/
def insertion (c : Candidate) : Text :=
  if c.text.contains Byte.newline || !c.label.isPrefixOf c.text then c.label else c.text

/-- The ways to go on after the characters before the cursor, read as characters, and the number of
characters of the name that they continue. There is no answer where there are no candidates at
all. -/
def continuations (s : Scratchpad) (before : List Char) : Option (List Text) × Nat :=
  let typed := (before.reverse.takeWhile isNameChar).reverse
  let name := Text.ofChars typed
  match s.completeAfter (Text.ofChars (before.take (before.length - typed.length))) with
  | [] => (none, 0)
  | candidates =>
    (some ((candidates.filter fun c => name.isPrefixOf c.label).map fun c =>
      Text.repaired ((insertion c).drop name.length)), typed.length)

end Scratchpad

end SvgAssist
