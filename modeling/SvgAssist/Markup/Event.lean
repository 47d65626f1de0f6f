import SvgAssist.Markup.Name

/-!
# Tag events

A tolerant scan of markup. It reports start tags, self-closed tags, end tags and comments in order,
with the bytes each covers, and steps over character data sections, processing instructions and
declarations. A start tag that another `<` interrupts is dropped. The scan ends at the first
construct that is left unterminated, because everything after it belongs to that construct.

A scan may be given a `Budget`: it asks for permission once before it starts and again whenever 4096
bytes or more have gone by since the last time it asked, and gives up when it is refused.
-/

namespace SvgAssist.Markup

inductive EventKind where
  | opened
  | selfClosed
  | closed
  | comment
deriving DecidableEq, Repr

/-- One piece of markup: `start` is the offset of its `<`, `stop` the offset just past its `>`. A
comment has no name. -/
structure Event where
  kind : EventKind
  name : Text
  start : Nat
  stop : Nat
deriving DecidableEq, Repr

/-- How a start tag ends, with the number of bytes from the end of its name: up to and with its `>`,
or up to the `<` that interrupts it. -/
inductive TagEnd where
  | closed (selfClosing : Bool) (size : Nat)
  | abandoned (size : Nat)
  | unterminated
deriving DecidableEq, Repr

/-- Looks for the end of a start tag. `quote` is the quote of the attribute value that the scan is
inside of, `slash` whether the byte before is a slash, `seen` the bytes gone by. -/
def tagEnd (quote : Option UInt8) (slash : Bool) (seen : Nat) : Text → TagEnd
  | [] => .unterminated
  | b :: rest =>
    match quote with
    | some q => tagEnd (if b = q then none else some q) (b == Byte.slash) (seen + 1) rest
    | none =>
      if b = Byte.doubleQuote || b = Byte.singleQuote then
        tagEnd (some b) false (seen + 1) rest
      else if b = Byte.greater then .closed slash (seen + 1)
      else if b = Byte.less then .abandoned seen
      else tagEnd none (b == Byte.slash) (seen + 1) rest

/-- What the scan finds where it stands: bytes to step over, an event with the bytes it covers, or a
construct that does not end. -/
inductive Piece where
  | skipped (size : Nat)
  | found (kind : EventKind) (name : Text) (size : Nat)
  | unterminated
deriving DecidableEq, Repr

/-- The bytes up to the first `terminator` at or after `skip`, the terminator included. -/
def pastFirst (terminator : Text) (skip : Nat) (text : Text) : Option Nat :=
  (Text.indexOf terminator (text.drop skip)).map (skip + · + terminator.length)

def skipPast (terminator : Text) (skip : Nat) (text : Text) : Piece :=
  match pastFirst terminator skip text with
  | some size => .skipped size
  | none => .unterminated

def construct (text : Text) : Piece :=
  if (utf8 "<!--").isPrefixOf text then
    match pastFirst (utf8 "-->") 4 text with
    | some size => .found .comment [] size
    | none => .unterminated
  else if (utf8 "<![CDATA[").isPrefixOf text then skipPast (utf8 "]]>") 9 text
  else if (utf8 "<?").isPrefixOf text then skipPast (utf8 "?>") 2 text
  else if (utf8 "<!").isPrefixOf text then skipPast (utf8 ">") 2 text
  else if (utf8 "</").isPrefixOf text then
    match pastFirst (utf8 ">") 0 text with
    | some size => .found .closed (takeName (text.drop 2)) size
    | none => .unterminated
  else
    let name := takeName (text.drop 1)
    if name = [] then .skipped 1
    else
      match tagEnd none false 0 (text.drop (1 + name.length)) with
      | .closed false size => .found .opened name (1 + name.length + size)
      | .closed true size => .found .selfClosed name (1 + name.length + size)
      | .abandoned size => .skipped (1 + name.length + size)
      | .unterminated => .unterminated

def piece (b : UInt8) (rest : Text) : Piece :=
  if b = Byte.less then construct (b :: rest) else .skipped 1

/-- Permission to go on scanning: how many more times it is granted, or without limit. -/
inductive Budget where
  | unlimited
  | checks (left : Nat)
deriving DecidableEq, Repr

def Budget.check : Budget → Option Budget
  | .unlimited => some .unlimited
  | .checks 0 => none
  | .checks (n + 1) => some (.checks n)

inductive Interrupted where
  | canceled
deriving DecidableEq, Repr

def checkInterval : Nat := 4096

def Budget.checkAt (budget : Budget) (asked offset : Nat) : Option (Budget × Nat) :=
  if checkInterval ≤ offset - asked then budget.check.map (·, offset) else some (budget, asked)

/-- The scan from `offset` on. `found` has the events so far, in reverse. -/
def scanFrom (budget : Budget) (asked offset : Nat) (found : List Event) :
    Text → Except Interrupted (List Event)
  | [] => .ok found.reverse
  | b :: rest =>
    match budget.checkAt asked offset with
    | none => .error .canceled
    | some (budget, asked) =>
      match piece b rest with
      | .unterminated => .ok found.reverse
      | .skipped size => scanFrom budget asked (offset + size) found (rest.drop (size - 1))
      | .found kind name size =>
        scanFrom budget asked (offset + size) (⟨kind, name, offset, offset + size⟩ :: found)
          (rest.drop (size - 1))
termination_by text => text.length
decreasing_by all_goals simp only [List.length_drop, List.length_cons]; omega

def scan (budget : Budget) (text : Text) : Except Interrupted (List Event) :=
  match budget.check with
  | none => .error .canceled
  | some budget => scanFrom budget 0 0 [] text

end SvgAssist.Markup
