import SvgAssist.Yaml.Tag

/-!
# Token streams

Tokens are cut off the text as they are asked for. A key without a mark of its own shows only when
its colon comes, so the tokens that may turn out to begin a key are held back in a queue, and the
tokens that open the mapping and the key are put in front of them then.

Indentation opens and closes block collections: `indent` is the column of the innermost one, minus
one outside of all.
-/

namespace SvgAssist.Yaml

open Scan (need reach skip skipTo skipToBreak)

/-- A place where a key may have begun. `number` counts the tokens before it; a `required` key must
turn out to be one, because nothing else can stand at its column. -/
structure PendingKey where
  possible : Bool
  required : Bool
  number : Nat
  mark : Mark
deriving DecidableEq, Repr, Inhabited

/-- A text part of which has been cut into tokens: those in `queue` are not taken yet, `taken`
counts those that are. There is a pending key for every level of brackets, innermost first, and for
the outermost level, which is outside of all. `held` has the numbers of the tokens that are held
back because they may begin a key, latest first, each with the level of that key, counted from the
outermost. -/
structure Stream where
  cursor : Cursor
  started : Bool
  queue : List Token
  taken : Nat
  flow : Nat
  indent : Int
  outerIndents : List Int
  keyAllowed : Bool
  keys : List PendingKey
  held : List (Nat × Nat)
deriving Inhabited

namespace Stream

def start (source : Source) : Stream where
  cursor := .start source
  started := false
  queue := []
  taken := 0
  flow := 0
  indent := -1
  outerIndents := []
  keyAllowed := false
  keys := []
  held := []

def maxNesting : Nat := 10000

def scan {α : Type} (s : Stream) (step : Scan α) : Except SyntaxError (α × Stream) := do
  let (value, cursor) ← step.run s.cursor
  return (value, { s with cursor := cursor })

def move (s : Stream) (step : Scan Unit) : Except SyntaxError Stream := do
  return (← s.scan step).2

def fail {α : Type} (s : Stream) (context : Mark) (problem : Problem) : Except SyntaxError α :=
  .error (tokenError context s.cursor.mark problem)

def nextNumber (s : Stream) : Nat := s.taken + s.queue.length

def push (s : Stream) (token : Token) : Stream := { s with queue := s.queue ++ [token] }

/-- Puts a token in front of the one with the given number. If that one has been taken already, the
token goes to the end. -/
def insert (s : Stream) (number : Nat) (token : Token) : Stream :=
  if number < s.taken then s.push token
  else
    let place := number - s.taken
    { s with queue := s.queue.take place ++ token :: s.queue.drop place }

def release (s : Stream) (number : Nat) : Stream :=
  { s with held := s.held.filter fun (n, _) => n ≠ number }

def setKey (s : Stream) (level : Nat) (key : PendingKey) : Stream :=
  { s with keys := s.keys.set (s.flow - level) key }

def keyAt? (s : Stream) (level : Nat) : Option PendingKey :=
  if level ≤ s.flow then s.keys[s.flow - level]? else none

/-- Whether a pending key can still be one: its colon must come on its line and within 1024
characters. -/
def keyInReach (s : Stream) (key : PendingKey) : Bool :=
  s.cursor.mark.line ≤ key.mark.line && s.cursor.mark.index ≤ key.mark.index + 1024

/-- The pending key of a level if it may be one. It is given up if it may not, and it is an error
when a required one may not. -/
def possibleKey (s : Stream) (level : Nat) : Except SyntaxError (Option PendingKey × Stream) :=
  match s.keyAt? level with
  | none => .ok (none, s)
  | some key =>
    if !key.possible then .ok (none, s)
    else if s.keyInReach key then .ok (some key, s)
    else if key.required then s.fail key.mark .missingColon
    else .ok (none, s.setKey level { key with possible := false })

def dropKey (s : Stream) : Except SyntaxError Stream :=
  match s.keys with
  | [] => .ok s
  | key :: outer =>
    if !key.possible then .ok s
    else if key.required then s.fail key.mark .missingColon
    else .ok ({ s with keys := { key with possible := false } :: outer }.release key.number)

def noteKey (s : Stream) : Except SyntaxError Stream :=
  if s.keyAllowed then do
    let key : PendingKey :=
      { possible := true
        required := s.flow == 0 && s.indent == s.cursor.mark.column
        number := s.nextNumber
        mark := s.cursor.mark }
    let s ← s.dropKey
    let s := (s.setKey s.flow key).release key.number
    let untaken := s.held.takeWhile fun (number, _) => s.taken ≤ number
    return { s with held := (key.number, s.flow) :: untaken }
  else .ok s

/-- Opens a block collection at a column further to the right. The token that says so goes in front
of the token `number`. -/
def indentTo (s : Stream) (column : Nat) (number : Nat) (kind : TokenKind) (mark : Mark) :
    Except SyntaxError Stream :=
  if s.flow = 0 && s.indent < column then
    let deeper := { s with indent := column, outerIndents := s.indent :: s.outerIndents }
    if maxNesting < deeper.outerIndents.length then
      s.fail ((s.keys.head?.map (·.mark)).getD ⟨0, 0, 0⟩) (.tooDeep maxNesting)
    else .ok (deeper.insert number ⟨kind, mark, mark⟩)
  else .ok s

def closeBlocks (s : Stream) (column : Int) : List Int → Stream
  | [] => s
  | indent :: outer =>
    if column < s.indent then
      let mark := s.cursor.mark
      closeBlocks
        { s.push ⟨.blockEnd, mark, mark⟩ with indent := indent, outerIndents := outer } column outer
    else s

def dedentTo (s : Stream) (column : Int) : Stream :=
  if s.flow = 0 then s.closeBlocks column s.outerIndents else s

def commentReach : Nat := 512

/-- The distance to a comment that follows the line at the cursor's end after nothing but blanks and
empty lines, from the given distance on. -/
def nextComment (distance : Nat) : Nat → Scan (Option Nat)
  | 0 => return none
  | left + 1 => do
    if !(← reach (distance + 1)) then return none
    else
      match (← get).at? distance with
      | some ch =>
        if ch == '#' then return some distance
        else if isBlank ch || ch == '\r' || ch == '\n' then nextComment (distance + 1) left
        else
          if isBreak ch && left ≠ 0 then discard (reach (distance + 2))
          return none
      | none => return none

/-- Moves past the comment at the cursor and past those that follow it. A line end that takes
several bytes ends the search. -/
def skipComments : Nat → Scan Unit
  | 0 => return
  | fuel + 1 => do
    skipToBreak
    let c ← get
    if c.is (fun ch => ch == '\r' || ch == '\n') 0 then
      match ← nextComment 1 (commentReach - 1) with
      | some distance =>
        skipTo (c.mark.index + distance) (c.size + 1)
        skipComments fuel
      | none => return
    else discard (reach 2)

/-- Moves past blanks and comments. Tabs count as blanks where they cannot be taken for
indentation. A byte order mark is passed over at the start of a line, if it is where the text was
last read in. -/
def skipLineStart (tabs : Bool) : Scan Unit := do
  need 1
  let c ← get
  if c.mark.column = 0 && c.markFirst then skip
  discard (Scan.takeWhile fun ch => ch == ' ' || (tabs && ch == '\t'))
  if (← get).is (· == '#') 0 then skipComments (c.size + 1)

/-- Moves to the next token: past blanks, comments and line ends. Each round takes a line, which
bounds `fuel`. -/
def skipToToken : Nat → Stream → Except SyntaxError Stream
  | 0, s => .ok s
  | fuel + 1, s => do
    let s ← s.move (skipLineStart (0 < s.flow || !s.keyAllowed))
    if s.cursor.is isBreak 0 then
      let s ← s.move Scan.skipLine
      skipToToken fuel { s with keyAllowed := s.keyAllowed || s.flow == 0 }
    else return s

def lineComment (distance : Nat) : Nat → Scan (Option Nat)
  | 0 => return none
  | left + 1 => do
    if !(← reach (distance + 1)) then return none
    else
      match (← get).at? distance with
      | some ch =>
        if isBlank ch then lineComment (distance + 1) left
        else return if ch == '#' then some distance else none
      | none => return none

def skipLineComment : Scan Unit := do
  let c ← get
  if c.newlines = 0 then
    match ← lineComment 0 commentReach with
    | some distance =>
      skipTo (c.mark.index + distance) (c.size + 1)
      skipToBreak
    | none => return

def cut (s : Stream) (kind : TokenKind) (size : Nat) : Stream :=
  let after := s.cursor.skipMany size
  { s with cursor := after }.push ⟨kind, s.cursor.mark, after.mark⟩

def cutBy (s : Stream) (step : Scan TokenKind) : Except SyntaxError Stream := do
  let (kind, after) ← s.scan step
  return after.push ⟨kind, s.cursor.mark, after.cursor.mark⟩

def cutEnd (s : Stream) : Except SyntaxError Stream := do
  let mark := s.cursor.mark
  let mark := if mark.column = 0 then mark else { mark with line := mark.line + 1, column := 0 }
  let s := dedentTo { s with cursor := { s.cursor with mark := mark } } (-1)
  let s ← s.dropKey
  return { s with keyAllowed := false }.push ⟨.streamEnd, mark, mark⟩

def cutMargin (s : Stream) : Except SyntaxError Stream := do
  let s ← (s.dedentTo (-1)).dropKey
  return { s with keyAllowed := false }

def cutDirective (s : Stream) : Except SyntaxError Stream := do
  (← s.cutMargin).cutBy directive

def cutDocumentIndicator (s : Stream) (kind : TokenKind) : Except SyntaxError Stream := do
  return (← s.cutMargin).cut kind 3

def cutFlowStart (s : Stream) (kind : TokenKind) : Except SyntaxError Stream := do
  let s ← s.noteKey
  let key : PendingKey :=
    { possible := false, required := false, number := s.nextNumber, mark := s.cursor.mark }
  if maxNesting < s.flow + 1 then s.fail s.cursor.mark (.tooDeep maxNesting)
  else return { s with keys := key :: s.keys, flow := s.flow + 1, keyAllowed := true }.cut kind 1

def cutFlowEnd (s : Stream) (kind : TokenKind) : Except SyntaxError Stream := do
  let s ← s.dropKey
  let s :=
    if s.flow = 0 then s
    else
      match s.keys with
      | [] => s
      | key :: outer => { s with keys := outer, flow := s.flow - 1 }.release key.number
  return { s with keyAllowed := false }.cut kind 1

def cutFlowEntry (s : Stream) : Except SyntaxError Stream := do
  return { ← s.dropKey with keyAllowed := true }.cut .flowEntry 1

def cutBlockEntry (s : Stream) : Except SyntaxError Stream := do
  let mark := s.cursor.mark
  let s ←
    if s.flow ≠ 0 then pure s
    else if !s.keyAllowed then s.fail mark .blockEntryContext
    else s.indentTo mark.column s.nextNumber .blockSequenceStart mark
  return { ← s.dropKey with keyAllowed := true }.cut .blockEntry 1

def cutKey (s : Stream) : Except SyntaxError Stream := do
  let mark := s.cursor.mark
  let s ←
    if s.flow ≠ 0 then pure s
    else if !s.keyAllowed then s.fail mark .mappingKeyContext
    else s.indentTo mark.column s.nextNumber .blockMappingStart mark
  return { ← s.dropKey with keyAllowed := s.flow == 0 }.cut .key 1

/-- The colon of a key. If a key is pending, that was it, and the tokens that open it are put in
front of it. -/
def cutValue (s : Stream) : Except SyntaxError Stream := do
  let mark := s.cursor.mark
  match ← s.possibleKey s.flow with
  | (some key, s) =>
    let s := s.insert key.number ⟨.key, key.mark, key.mark⟩
    let s ← s.indentTo key.mark.column key.number .blockMappingStart key.mark
    let s := (s.setKey s.flow { key with possible := false }).release key.number
    return { s with keyAllowed := false }.cut .value 1
  | (none, s) =>
    let s ←
      if s.flow ≠ 0 then pure s
      else if !s.keyAllowed then s.fail mark .mappingValueContext
      else s.indentTo mark.column s.nextNumber .blockMappingStart mark
    return { s with keyAllowed := s.flow == 0 }.cut .value 1

def cutContent (s : Stream) (step : Scan TokenKind) : Except SyntaxError Stream := do
  let s ← s.noteKey
  { s with keyAllowed := false }.cutBy step

def cutBlockScalar (s : Stream) (literal : Bool) : Except SyntaxError Stream := do
  let s ← s.dropKey
  { s with keyAllowed := true }.cutBy do
    return .scalar (← blockScalar literal s.indent) false

def cutQuoted (s : Stream) (single : Bool) : Except SyntaxError Stream :=
  s.cutContent do return .scalar (← quotedScalar single) false

/-- A plain scalar. A key may follow it when a line ended after its last word. -/
def cutPlain (s : Stream) : Except SyntaxError Stream := do
  let s ← s.noteKey
  let ((text, ended), after) ← s.scan (plainScalar (s.flow ≠ 0) s.indent)
  return { after with keyAllowed := ended }.push
    ⟨.scalar text true, s.cursor.mark, after.cursor.mark⟩

def isIndicator (ch : Char) : Bool :=
  ch == '-' || ch == '?' || ch == ':' || ch == ',' || ch == '[' || ch == ']' || ch == '\x7b' ||
    ch == '\x7d' || ch == '#' || ch == '&' || ch == '*' || ch == '!' || ch == '|' || ch == '>' ||
    ch == '\'' || ch == '"' || ch == '%' || ch == '@' || ch == '\x60'

def cutToken (s : Stream) (ch : Char) : Except SyntaxError Stream :=
  let c := s.cursor
  let apart := c.blankOrEnds 1
  if ch == '[' then s.cutFlowStart .flowSequenceStart
  else if ch == '\x7b' then s.cutFlowStart .flowMappingStart
  else if ch == ']' then s.cutFlowEnd .flowSequenceEnd
  else if ch == '\x7d' then s.cutFlowEnd .flowMappingEnd
  else if ch == ',' then s.cutFlowEntry
  else if ch == '-' && apart then s.cutBlockEntry
  else if ch == '?' && (0 < s.flow || apart) then s.cutKey
  else if ch == ':' && (0 < s.flow || apart) then s.cutValue
  else if ch == '*' then s.cutContent do return .reference (← anchorName)
  else if ch == '&' then s.cutContent do return .anchor (← anchorName)
  else if ch == '!' then s.cutContent do return .tag (← tagName)
  else if ch == '|' && s.flow = 0 then s.cutBlockScalar true
  else if ch == '>' && s.flow = 0 then s.cutBlockScalar false
  else if ch == '\'' then s.cutQuoted true
  else if ch == '"' then s.cutQuoted false
  else if (!isIndicator ch && !isBlank ch) || (ch == '-' && !c.is isBlank 1) ||
      (s.flow = 0 && (ch == '?' || ch == ':') && !apart) then
    s.cutPlain
  else s.fail c.mark .cannotStartToken

def cutStart (s : Stream) : Stream :=
  let mark := s.cursor.mark
  let key : PendingKey := { possible := false, required := false, number := 0, mark := ⟨0, 0, 0⟩ }
  { s with started := true, keyAllowed := true, keys := [key] }.push ⟨.streamStart, mark, mark⟩

def cutNext (s : Stream) : Except SyntaxError Stream := do
  let s ← s.move (need 1)
  if !s.started then return s.cutStart
  else
    let s ← skipToToken (s.cursor.size + 1) s
    let s ← (s.dedentTo s.cursor.mark.column).move (need 4)
    let c := s.cursor
    match c.at? 0 with
    | none => s.cutEnd
    | some ch =>
      if c.mark.column = 0 && ch == '%' then s.cutDirective
      else if c.isDocumentIndicator then
        s.cutDocumentIndicator (if ch == '-' then .documentStart else .documentEnd)
      else
        let s ← s.cutToken ch
        match s.queue.getLast? with
        | some ⟨.blockEntry, _, _⟩ => return s
        | _ => s.move skipLineComment

def headIsHeld (s : Stream) : Except SyntaxError (Bool × Stream) := do
  match s.held.find? fun (number, _) => number == s.taken with
  | none => return (false, s)
  | some (_, level) =>
    let (key, s) ← s.possibleKey level
    return (key.isSome, s)

/-- Cuts off tokens until the first one in the queue is settled. At least two more are wanted behind
it. -/
def settle : Nat → Stream → Except SyntaxError Stream
  | 0, s => .ok s
  | fuel + 1, s => do
    if s.queue.length ≤ 2 then settle fuel (← s.cutNext)
    else
      let (isHeld, s) ← s.headIsHeld
      if isHeld then settle fuel (← s.cutNext) else return s

def peek (s : Stream) : Except SyntaxError (Token × Stream) := do
  let s ← settle (s.cursor.size + 8) s
  match s.queue with
  | token :: _ => return (token, s)
  | [] => return (⟨.streamEnd, s.cursor.mark, s.cursor.mark⟩, s)

def next (s : Stream) : Stream := { s with queue := s.queue.drop 1, taken := s.taken + 1 }

end Stream

end SvgAssist.Yaml
