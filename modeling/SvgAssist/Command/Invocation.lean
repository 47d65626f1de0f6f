import SvgAssist.Command.Flag

/-!
# Invocations

Which command a list of arguments calls, with which flags and operands. The command is the first
argument that is neither a flag nor the value of one; a name that no command has is answered with
the commands that are close to it.
-/

namespace SvgAssist.Command

/-- The commands. `overview` is the program without a command, and `guidance` stands for those that
only explain the others. -/
inductive Verb where
  | overview
  | complete
  | lsp
  | repl
  | schema
  | guidance
deriving DecidableEq, Repr

def programName : Text := utf8 "svgls"

def verbs : List (Text × Verb) :=
  [(utf8 "complete", .complete), (utf8 "lsp", .lsp), (utf8 "repl", .repl),
    (utf8 "schema", .schema), (utf8 "help", .guidance), (utf8 "completion", .guidance)]

def sharedFlags : List Flag :=
  [.long "config" .text, .long "schema" .text, .long "log-verbosity" .integer,
    .long "log-file" .text, .long "completion-timeout" .duration, .long "trace" .switch]

def Verb.ownFlags : Verb → List Flag
  | .complete =>
    [⟨utf8 "line", some 0x6c, .integer⟩, ⟨utf8 "col", some 0x63, .integer⟩, .long "json" .switch,
      .long "marker" .text]
  | .lsp => [.long "stdio" .switch, .long "port" .integer, .long "websocket" .text]
  | .overview | .repl | .schema | .guidance => []

def helpFlag : Flag := ⟨utf8 "help", some 0x68, .switch⟩

/-- Whether an argument is a flag that takes the argument after it. A flag that is not known is
taken for one that does. -/
def takesNext (flags : List Flag) (argument : Text) : Bool :=
  !argument.contains Byte.equals &&
    match argument with
    | Byte.hyphen :: Byte.hyphen :: name => !(long? flags name).any Flag.isSwitch
    | [Byte.hyphen, c] => !(short? flags c).any Flag.isSwitch
    | _ => false

def looksLikeFlag (argument : Text) : Bool := argument.head? = some Byte.hyphen

/-- The first argument that is neither a flag nor the value of one. The last argument is never seen
behind a flag that takes it. -/
def firstWord (flags : List Flag) : List Text → Option Text
  | [] => none
  | argument :: rest =>
    if argument = utf8 "--" then none
    else if takesNext flags argument then
      match rest with
      | _ :: next :: more => firstWord flags (next :: more)
      | _ => none
    else if argument ≠ [] && !looksLikeFlag argument then some argument
    else firstWord flags rest

/-- The arguments without the first one that is `word` and neither a flag nor the value of one. -/
def withoutWord (flags : List Flag) (word : Text) : List Text → List Text
  | [] => []
  | argument :: rest =>
    if argument = utf8 "--" then argument :: rest
    else if takesNext flags argument then
      match rest with
      | [] => [argument]
      | value :: more => argument :: value :: withoutWord flags word more
    else if argument = word && !looksLikeFlag argument then rest
    else argument :: withoutWord flags word rest

/-- The rows of the table of edit distances: the next row after `row`, for one more byte `a` of the
first text. `left` is the entry just made, and `diagonal` the one above and left. -/
def distanceRow (a : UInt8) (left diagonal : Nat) : Text → List Nat → List Nat
  | b :: bs, above :: row =>
    let here := if a = b then diagonal else min (min above left) diagonal + 1
    here :: distanceRow a here above bs row
  | _, _ => []

def editDistance (a b : Text) : Nat :=
  let first := List.range (b.length + 1)
  let last := a.foldl
    (fun row x => match row with
      | [] => []
      | corner :: above => (corner + 1) :: distanceRow x (corner + 1) corner b above)
    first
  last.getLast?.getD 0

def maxDistance : Nat := 2

def suggestions (name : Text) : List Text :=
  let name := Text.lowerAscii name
  (verbs.filter fun (verb, _) => verb ≠ utf8 "help" &&
    (editDistance name verb ≤ maxDistance || name.isPrefixOf verb)).map (·.1)

inductive UsageError where
  | unknownCommand (name : Text)
  | flag (error : FlagError)
  | unwantedOperand (name : Text) (path : Text)
  | wrongCount (wanted received : Nat)
  | tooMany (limit received : Nat)
  | exclusive (group set : List Text)
deriving DecidableEq, Repr

def bracketed (names : List Text) : Text :=
  utf8 "[" ++ (utf8 " ").intercalate names ++ utf8 "]"

def UsageError.message : UsageError → Text
  | .unknownCommand name =>
    let close := suggestions name
    utf8 "unknown command " ++ Text.quote name ++ utf8 " for " ++ Text.quote programName ++
      (if close = [] then []
        else utf8 "\n\nDid you mean this?\n" ++
          close.flatMap fun verb => utf8 "\t" ++ verb ++ utf8 "\n")
  | .flag e => e.message
  | .unwantedOperand name path =>
    utf8 "unknown command " ++ Text.quote name ++ utf8 " for " ++ Text.quote path
  | .wrongCount wanted received =>
    utf8 "accepts " ++ Text.ofNat wanted ++ utf8 " arg(s), received " ++ Text.ofNat received
  | .tooMany limit received =>
    utf8 "accepts at most " ++ Text.ofNat limit ++ utf8 " arg(s), received " ++ Text.ofNat received
  | .exclusive group set =>
    utf8 "if any flags in the group " ++ bracketed group ++
      utf8 " are set none of the others can be; " ++ bracketed set ++ utf8 " were all set"

structure Invocation where
  verb : Verb
  arguments : Parsed
deriving DecidableEq, Repr

namespace Invocation

def select (arguments : List Text) : Except UsageError (Verb × List Text) :=
  match firstWord sharedFlags arguments with
  | none => .ok (.overview, arguments)
  | some word =>
    match verbs.lookup word with
    | none => .error (.unknownCommand word)
    | some verb => .ok (verb, withoutWord sharedFlags word arguments)

def read (arguments : List Text) : Except UsageError Invocation := do
  let (verb, arguments) ← select arguments
  if verb = .guidance then return ⟨.guidance, ⟨[], []⟩⟩
  let parsed ← (parse (verb.ownFlags ++ sharedFlags ++ [helpFlag]) arguments).mapError .flag
  if parsed.switch? "help" = some true then return ⟨.guidance, parsed⟩
  return ⟨verb, parsed⟩

def checkOperands (i : Invocation) : Except UsageError Unit :=
  let operands := i.arguments.operands
  let none? (path : String) : Except UsageError Unit :=
    match operands with
    | [] => .ok ()
    | name :: _ => .error (.unwantedOperand name (programName ++ utf8 path))
  match i.verb with
  | .complete => if operands.length = 1 then .ok () else .error (.wrongCount 1 operands.length)
  | .schema => if operands.length ≤ 1 then .ok () else .error (.tooMany 1 operands.length)
  | .lsp => none? " lsp"
  | .repl => none? " repl"
  | .overview | .guidance => .ok ()

def exclusiveFlags : List String := ["stdio", "port", "websocket"]

/-- Refuses flags that exclude each other. They are listed in alphabetical order. -/
def checkFlags (i : Invocation) : Except UsageError Unit :=
  match i.verb with
  | .lsp =>
    let set := ["port", "stdio", "websocket"].filter i.arguments.isSet
    if set.length ≤ 1 then .ok ()
    else .error (.exclusive (exclusiveFlags.map utf8) (set.map utf8))
  | _ => .ok ()

def check (i : Invocation) : Except UsageError Unit := do
  i.checkOperands
  i.checkFlags

end Invocation

end SvgAssist.Command
