import SvgAssist.Command.Value

/-!
# Flags

The flags that a command takes, and how they are told from its operands. A long flag is written
`--name value` or `--name=value`, a short one `-n value`, `-nvalue` or `-n=value`; flags that are
switches take no value unless it is joined on. Flags may stand anywhere before `--`.
-/

namespace SvgAssist.Command

/-- What a flag takes. A switch takes no value unless it is joined on. -/
inductive FlagKind where
  | text
  | integer
  | switch
  | duration
deriving DecidableEq, Repr

inductive FlagValue where
  | text (value : Text)
  | integer (value : Int)
  | switch (value : Bool)
  | duration (nanoseconds : Int)
deriving DecidableEq, Repr

def FlagKind.read (kind : FlagKind) (value : Text) : Except ValueError FlagValue :=
  match kind with
  | .text => .ok (.text value)
  | .integer => (readInteger value).map .integer
  | .switch => (readBool value).map .switch
  | .duration => (readDuration value).map .duration

structure Flag where
  name : Text
  short : Option UInt8
  kind : FlagKind
deriving DecidableEq, Repr

namespace Flag

def long (name : String) (kind : FlagKind) : Flag := ⟨utf8 name, none, kind⟩

def title (f : Flag) : Text :=
  match f.short with
  | some c => Byte.hyphen :: c :: utf8 ", --" ++ f.name
  | none => utf8 "--" ++ f.name

def isSwitch (f : Flag) : Bool := f.kind = .switch

end Flag

inductive FlagError where
  | badSyntax (argument : Text)
  | unknown (name : Text)
  | unknownShort (c : UInt8) (cluster : Text)
  | needsValue (argument : Text)
  | shortNeedsValue (c : UInt8) (cluster : Text)
  | badValue (flag : Flag) (value : Text) (cause : ValueError)
deriving DecidableEq, Repr

def quoteByte (b : UInt8) : Text := Text.quoteChar (Char.ofNat b.toNat)

def FlagError.message : FlagError → Text
  | .badSyntax argument => utf8 "bad flag syntax: " ++ argument
  | .unknown name => utf8 "unknown flag: --" ++ name
  | .unknownShort c cluster =>
    utf8 "unknown shorthand flag: " ++ quoteByte c ++ utf8 " in -" ++ cluster
  | .needsValue argument => utf8 "flag needs an argument: " ++ argument
  | .shortNeedsValue c cluster =>
    utf8 "flag needs an argument: " ++ quoteByte c ++ utf8 " in -" ++ cluster
  | .badValue flag value cause =>
    utf8 "invalid argument " ++ Text.quote value ++ utf8 " for " ++ Text.quote flag.title ++
      utf8 " flag: " ++ cause.message

structure Parsed where
  flags : List (Text × FlagValue)
  operands : List Text
deriving DecidableEq, Repr, Inhabited

namespace Parsed

def addFlag (f : Flag) (value : FlagValue) (p : Parsed) : Parsed :=
  { p with flags := (f.name, value) :: p.flags }

def addOperand (operand : Text) (p : Parsed) : Parsed :=
  { p with operands := operand :: p.operands }

def flag? (p : Parsed) (name : String) : Option FlagValue :=
  (p.flags.reverse.find? fun (n, _) => n == utf8 name).map (·.2)

def text? (p : Parsed) (name : String) : Option Text :=
  match p.flag? name with
  | some (.text value) => some value
  | _ => none

def integer? (p : Parsed) (name : String) : Option Int :=
  match p.flag? name with
  | some (.integer value) => some value
  | _ => none

def switch? (p : Parsed) (name : String) : Option Bool :=
  match p.flag? name with
  | some (.switch value) => some value
  | _ => none

def duration? (p : Parsed) (name : String) : Option Int :=
  match p.flag? name with
  | some (.duration value) => some value
  | _ => none

def isSet (p : Parsed) (name : String) : Bool := (p.flag? name).isSome

end Parsed

/-- What the first argument says: some flags, and whether the last of them also takes the argument
after it. -/
structure Reading where
  flags : List (Flag × Text)
  wanting : Option (Flag × FlagError)

def long? (flags : List Flag) (name : Text) : Option Flag := flags.find? (·.name == name)

def short? (flags : List Flag) (c : UInt8) : Option Flag := flags.find? (·.short == some c)

/-- A text that does not begin with a value for a switch is taken as set. -/
def switchedOn : Text := utf8 "true"

def readLong (flags : List Flag) (body : Text) : Except FlagError Reading :=
  let argument := utf8 "--" ++ body
  if body = [] ∨ body.head? = some Byte.hyphen ∨ body.head? = some Byte.equals then
    .error (.badSyntax argument)
  else
    let name := body.takeWhile (· ≠ Byte.equals)
    match long? flags name with
    | none => .error (.unknown name)
    | some flag =>
      if name.length < body.length then .ok ⟨[(flag, body.drop (name.length + 1))], none⟩
      else if flag.isSwitch then .ok ⟨[(flag, switchedOn)], none⟩
      else .ok ⟨[], some (flag, .needsValue argument)⟩

/-- The letters of the argument `-cluster`. One that takes a value takes all that follows it. -/
def readShort (flags : List Flag) : Text → Except FlagError Reading
  | [] => .ok ⟨[], none⟩
  | c :: rest =>
    if (utf8 "test.").isPrefixOf (c :: rest) then .ok ⟨[], none⟩
    else match short? flags c with
      | none => .error (.unknownShort c (c :: rest))
      | some flag =>
        if rest.head? = some Byte.equals ∧ 1 < rest.length then .ok ⟨[(flag, rest.drop 1)], none⟩
        else if flag.isSwitch then do
          let more ← readShort flags rest
          return { more with flags := (flag, switchedOn) :: more.flags }
        else if rest ≠ [] then .ok ⟨[(flag, rest)], none⟩
        else .ok ⟨[], some (flag, .shortNeedsValue c [c])⟩

def setFlag (p : Parsed) (entry : Flag × Text) : Except FlagError Parsed :=
  match entry.1.kind.read entry.2 with
  | .ok value => .ok (p.addFlag entry.1 value)
  | .error cause => .error (.badValue entry.1 entry.2 cause)

def readArgument (flags : List Flag) (argument : Text) : Option (Except FlagError Reading) :=
  match argument with
  | Byte.hyphen :: Byte.hyphen :: body => some (readLong flags body)
  | Byte.hyphen :: c :: cluster => some (readShort flags (c :: cluster))
  | _ => none

/-- Reads arguments onto those before them; flags and operands are collected in reverse. -/
def parseFrom (flags : List Flag) (p : Parsed) : List Text → Except FlagError Parsed
  | [] => .ok p
  | argument :: rest =>
    if argument = utf8 "--" then .ok (rest.foldl (fun p operand => p.addOperand operand) p)
    else match readArgument flags argument with
      | none => parseFrom flags (p.addOperand argument) rest
      | some (.error e) => .error e
      | some (.ok reading) => do
        let p ← reading.flags.foldlM setFlag p
        match reading.wanting, rest with
        | none, rest => parseFrom flags p rest
        | some (_, e), [] => .error e
        | some (flag, _), value :: rest => parseFrom flags (← setFlag p (flag, value)) rest

def parse (flags : List Flag) (arguments : List Text) : Except FlagError Parsed :=
  (parseFrom flags ⟨[], []⟩ arguments).map fun p => ⟨p.flags.reverse, p.operands.reverse⟩

end SvgAssist.Command
