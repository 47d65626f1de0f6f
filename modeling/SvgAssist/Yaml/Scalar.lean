import SvgAssist.Yaml.Fold

/-!
# Scalars

Reading of the three kinds of scalar: plain, quoted, and block scalars.
-/

namespace SvgAssist.Yaml

open Scan

def isFlowIndicator (ch : Char) : Bool :=
  ch == ',' || ch == '?' || ch == '[' || ch == ']' || ch == '\x7b' || ch == '\x7d'

def plainWord (flow : Bool) (f : Fold) : Nat → Scan Fold
  | 0 => return f
  | fuel + 1 => do
    let c ← get
    match c.at? 0 with
    | none => return f
    | some ch =>
      if isBlank ch || isBreak ch then return f
      else if (ch == ':' && c.blankOrEnds 1) || (flow && isFlowIndicator ch) then return f
      else
        skip
        need 2
        plainWord flow (f.join.push ch) fuel

/-- The blanks and line ends after a word. Tabs may not stand in the indentation, where there is
one. -/
def gap (indentation : Option (Int × Mark)) (f : Fold) : Nat → Scan Fold
  | 0 => return f
  | fuel + 1 => do
    let c ← get
    match c.at? 0 with
    | none => return f
    | some ch =>
      if isBlank ch then
        match indentation with
        | some (indent, start) =>
          if f.ended && (c.mark.column : Int) < indent && ch == '\t' then
            Scan.fail start .tabViolation
        | none => pure ()
        skip
        need 1
        gap indentation (f.blank ch) fuel
      else if isBreak ch then
        skipLine
        need 1
        gap indentation (f.lineEnd ch) fuel
      else return f

def plainFrom (flow : Bool) (indent : Int) (start : Mark) (f : Fold) : Nat → Scan Fold
  | 0 => return f
  | fuel + 1 => do
    need 4
    let c ← get
    if c.isDocumentIndicator || c.is (· == '#') 0 then return f
    else
      let f ← plainWord flow f (c.size + 1)
      if !(← get).is (fun ch => isBlank ch || isBreak ch) 0 then return f
      else
        need 1
        let f ← gap (some (indent, start)) f (c.size + 1)
        if !flow && ((← get).mark.column : Int) < indent then return f
        else plainFrom flow indent start f fuel

def plainScalar (flow : Bool) (indent : Int) : Scan (Text × Bool) := do
  let c ← get
  let f ← plainFrom flow (indent + 1) c.mark .empty (c.size + 1)
  return (f.text, f.ended)

inductive Escape where
  | char (ch : Char)
  | code (digits : Nat)

def escape? (ch : Char) : Option Escape :=
  match ch with
  | '0' => some (.char (Char.ofNat 0))
  | 'a' => some (.char (Char.ofNat 7))
  | 'b' => some (.char (Char.ofNat 8))
  | 't' => some (.char '\t')
  | '\t' => some (.char '\t')
  | 'n' => some (.char '\n')
  | 'v' => some (.char (Char.ofNat 0x0b))
  | 'f' => some (.char (Char.ofNat 0x0c))
  | 'r' => some (.char '\r')
  | 'e' => some (.char (Char.ofNat 0x1b))
  | ' ' => some (.char ' ')
  | '"' => some (.char '"')
  | '\'' => some (.char '\'')
  | '\\' => some (.char '\\')
  | 'N' => some (.char (Char.ofNat 0x85))
  | '_' => some (.char (Char.ofNat 0xa0))
  | 'L' => some (.char (Char.ofNat 0x2028))
  | 'P' => some (.char (Char.ofNat 0x2029))
  | 'x' => some (.code 2)
  | 'u' => some (.code 4)
  | 'U' => some (.code 8)
  | _ => none

def escapeCode (start : Mark) (digits : Nat) : Scan Char := do
  need digits
  let values := ((← get).rest.take digits).filterMap hexValue?
  let value := values.foldl (fun n d => n * 16 + d) 0
  if values.length < digits then Scan.fail start .hexNumber
  else if (0xd800 ≤ value && value ≤ 0xdfff) || 0x10ffff < value then Scan.fail start .escapeCode
  else
    skipMany digits
    return Char.ofNat value

def escaped (start : Mark) : Scan Char := do
  match ((← get).at? 1).bind escape? with
  | none => Scan.fail start .unknownEscape
  | some (.char ch) =>
    skipMany 2
    return ch
  | some (.code digits) =>
    skipMany 2
    escapeCode start digits

def quoteMark (single : Bool) : Char := if single then '\'' else '"'

def quotedWord (single : Bool) (start : Mark) (f : Fold) : Nat → Scan Fold
  | 0 => return f
  | fuel + 1 => do
    let c ← get
    match c.at? 0 with
    | none => return f
    | some ch =>
      if isBlank ch || isBreak ch then return f
      else if ch == quoteMark single && !(single && c.is (· == ch) 1) then return f
      else if !single && ch == '\\' && c.is isBreak 1 then
        need 3
        skip
        skipLine
        return f.join.silentEnd
      else
        let ch ←
          if !single && ch == '\\' then escaped start
          else do
            skipMany (if ch == quoteMark single then 2 else 1)
            pure ch
        need 2
        quotedWord single start (f.join.push ch) fuel

def quotedFrom (single : Bool) (start : Mark) (f : Fold) : Nat → Scan Text
  | 0 => return f.text
  | fuel + 1 => do
    need 4
    let c ← get
    if c.isDocumentIndicator then Scan.fail start .documentIndicator
    else if (c.at? 0).isNone then Scan.fail start .endOfStream
    else
      let f ← quotedWord single start f (c.size + 1)
      need 1
      if (← get).is (· == quoteMark single) 0 then
        skip
        return f.join.text
      else quotedFrom single start (← gap none f (c.size + 1)) fuel

def quotedScalar (single : Bool) : Scan Text := do
  let c ← get
  skip
  quotedFrom single c.mark .empty (c.size + 1)

inductive Chomping where
  | strip
  | clip
  | keep
deriving DecidableEq, Repr

def chomping? (ch : Char) : Option Chomping :=
  if ch == '+' then some .keep else if ch == '-' then some .strip else none

def readChomping : Scan Chomping := do
  match ((← get).at? 0).bind chomping? with
  | some how =>
    skip
    return how
  | none => return .clip

def readIncrement (start : Mark) : Scan Nat := do
  match (← get).at? 0 with
  | some ch =>
    if !ch.isDigit then return 0
    else if ch == '0' then Scan.fail start .zeroIndent
    else
      skip
      return ch.toNat - 0x30
  | none => return 0

def blockHeader (start : Mark) : Scan (Chomping × Nat) := do
  need 1
  if (← get).is (fun ch => (chomping? ch).isSome) 0 then
    let how ← readChomping
    need 1
    return (how, ← readIncrement start)
  else
    let increment ← readIncrement start
    if increment = 0 then return (.clip, 0)
    else
      need 1
      return (← readChomping, increment)

/-- Moves past indentation and empty lines. `indent` is zero as long as it is not known, `widest`
the furthest column reached so far, `breaks` has the line ends in reverse. -/
def blockBreaksFrom (start : Mark) (indent widest : Nat) (breaks : List Char) :
    Nat → Scan (Nat × List Char)
  | 0 => return (widest, breaks)
  | fuel + 1 => do
    need 1
    let c ← get
    let inside := indent = 0 || c.mark.column < indent
    if inside && c.is (· == ' ') 0 then
      skip
      blockBreaksFrom start indent widest breaks fuel
    else
      let widest := max widest c.mark.column
      match c.at? 0 with
      | some ch =>
        if inside && ch == '\t' then Scan.fail start .tabIndent
        else if isBreak ch then
          skipLine
          blockBreaksFrom start indent widest (breakText ch :: breaks) fuel
        else return (widest, breaks)
      | none => return (widest, breaks)

/-- Moves past indentation and empty lines, and settles the indentation if it is not known: the
furthest column, but more than that of the surroundings. -/
def blockBreaks (start : Mark) (outer : Int) (indent : Nat) : Scan (Nat × List Char) := do
  let (widest, breaks) ← blockBreaksFrom start indent 0 [] ((← get).size + 1)
  return (if indent = 0 then max (max widest (outer + 1).toNat) 1 else indent, breaks)

/-- A block scalar while it is read. All texts are in reverse: the text, the line end after its last
line, and the empty lines after that. `blank` is whether the last line began with a blank. -/
structure BlockText where
  done : List Char
  lineEnd : List Char
  breaks : List Char
  blank : Bool

/-- The text before a new line that begins with a blank or not. Lines of a folded scalar are joined
unless one of them begins with a blank. -/
def BlockText.join (b : BlockText) (literal blank : Bool) : List Char :=
  if !literal && !b.blank && !blank && b.lineEnd = ['\n'] then
    (if b.breaks = [] then ' ' :: b.done else b.breaks ++ b.done)
  else b.breaks ++ b.lineEnd ++ b.done

/-- The lines of a block scalar. Every line takes at least one character, which bounds `fuel`. -/
def blockLines (literal : Bool) (start : Mark) (outer : Int) (indent : Nat) (b : BlockText) :
    Nat → Scan BlockText
  | 0 => return b
  | fuel + 1 => do
    let c ← get
    if c.mark.column = indent && c.rest ≠ [] then
      let blank := c.is isBlank 0
      let line ← takeWhile (!isBreak ·)
      let lineEnd := match (← get).at? 0 with
        | some ch => [breakText ch]
        | none => []
      skipLine
      let (_, breaks) ← blockBreaks start outer indent
      blockLines literal start outer indent
        ⟨line.reverse ++ b.join literal blank, lineEnd, breaks, blank⟩ fuel
    else return b

def finishLine (start : Mark) : Scan Unit := do
  skipBlanks
  if (← get).is (· == '#') 0 then skipToBreak
  let c ← get
  if !c.ends 0 then Scan.fail start .expectedLineEnd
  else if (c.at? 0).isSome then skipLine

def blockScalar (literal : Bool) (outer : Int) : Scan Text := do
  let start := (← get).mark
  skip
  let (how, increment) ← blockHeader start
  finishLine start
  let given :=
    if increment = 0 then 0 else if 0 ≤ outer then outer.toNat + increment else increment
  let (indent, breaks) ← blockBreaks start outer given
  need 1
  let b ← blockLines literal start outer indent ⟨[], [], breaks, false⟩ ((← get).size + 1)
  let tail := match how with
    | .strip => []
    | .clip => b.lineEnd
    | .keep => b.breaks ++ b.lineEnd
  return Text.ofChars (tail ++ b.done).reverse

end SvgAssist.Yaml
