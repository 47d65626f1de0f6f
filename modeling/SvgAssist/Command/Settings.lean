import SvgAssist.Command.Flag
import SvgAssist.Config.File
import SvgAssist.Markup.Event

/-!
# Settings

Settings come from flags, from variables of the environment and from a configuration file, in this
order. A configuration file that cannot be read counts as none. Its keys match whatever their case,
and a key with a dot may be written out or as a table.
-/

namespace SvgAssist.Command

open Config (Setting)

/-- The whole number of 64 bits that a number is taken for. One out of their range is taken for the
smallest. -/
def wholeOf (d : Number.Double) : Int :=
  let least : Int := -Number.twoTo63
  match d.whole? with
  | some n => if least ≤ n && n < Number.twoTo63 then n else least
  | none => least

/-- A length of time in nanoseconds: a number of them, or a text that has a unit or is in
nanoseconds. What cannot be read is no time at all. -/
def durationOf : Setting → Int
  | .text value =>
    let hasUnit := (Text.chars value).any fun d =>
      ['n', 's', 'u', 'm', 'h', Char.ofNat 0xb5].contains d.char
    match readDuration (if hasUnit then value else value ++ utf8 "ns") with
    | .ok n => n
    | .error _ => 0
  | .int value => if value < Number.twoTo63 then value else value - Number.twoTo64
  | .float value => wholeOf value
  | .null | .flag _ | .time _ | .list | .table _ => 0

/-- A truth value. Numbers are true unless they are zero, and what cannot be read is false. -/
def truthOf : Setting → Bool
  | .flag value => value
  | .text value => match readBool value with
    | .ok b => b
    | .error _ => false
  | .int value => value ≠ 0
  | .float value => !value.isZero
  | .null | .time _ | .list | .table _ => false

def withoutZeroFraction (text : Text) : Text :=
  let back := text.reverse.dropWhile (· = 0x30)
  match back with
  | Byte.dot :: whole => if back.length < text.length then whole.reverse else text
  | _ => text

def numberOf : Setting → Int
  | .int value => if value < Number.twoTo63 then value else value - Number.twoTo64
  | .float value => wholeOf value
  | .flag value => if value then 1 else 0
  | .text value => match readInteger (withoutZeroFraction value) with
    | .ok n => n
    | .error _ => 0
  | .null | .time _ | .list | .table _ => 0

structure Sources where
  getVar? : Text → Option Text
  file : Setting

namespace Sources

def nonempty? (s : Sources) (name : String) : Option Text :=
  match s.getVar? (utf8 name) with
  | some [] | none => none
  | some value => some value

def simple? (s : Sources) (variableName key : String) : Option Setting :=
  ((s.nonempty? variableName).map .text).or (s.file.entry? (utf8 key))

/-- The setting `group.key`. A value for the whole group hides those inside of it. -/
def grouped? (s : Sources) (variableName groupVariable group key : String) (initial : Setting) :
    Setting :=
  match s.nonempty? variableName with
  | some value => .text value
  | none =>
    if (s.nonempty? groupVariable).isSome then .null
    else
      let table := s.file.entry? (utf8 group)
      let found := (s.file.entry? (utf8 group ++ utf8 "." ++ utf8 key)).or
        (table.bind fun t => t.entry? (utf8 key))
      match found with
      | some value => value
      | none => if table.any (!·.isTable) then .null else initial

end Sources

/-- What the commands have to know. An empty grammar path is that of the standard grammar, and an
empty path for logs is the standard error stream. -/
structure Settings where
  schema : Text
  logFile : Text
  verbosity : Int
  timeout : Int
  trace : Bool
deriving DecidableEq, Repr

def defaultTimeout : Int := 250000000

def Settings.read (arguments : Parsed) (sources : Sources) : Settings where
  schema := match arguments.text? "schema" with
    | some path => path
    | none => ((sources.simple? "SVGLS_SCHEMA" "schema").map Setting.toText).getD []
  logFile := match arguments.text? "log-file" with
    | some path => path
    | none => (sources.grouped? "SVGLS_LOG_FILE" "SVGLS_LOG" "log" "file" .null).toText
  verbosity := match arguments.integer? "log-verbosity" with
    | some n => n
    | none => numberOf (sources.grouped? "SVGLS_LOG_VERBOSITY" "SVGLS_LOG" "log" "verbosity" .null)
  timeout := match arguments.duration? "completion-timeout" with
    | some n => n
    | none => durationOf (sources.grouped? "SVGLS_COMPLETION_TIMEOUT" "SVGLS_COMPLETION"
        "completion" "timeout" (.int defaultTimeout))
  trace := match arguments.switch? "trace" with
    | some b => b
    | none => ((sources.simple? "SVGLS_TRACE" "trace").map truthOf).getD false

def leastVerbosity : Int := -3

def Settings.log? (s : Settings) : Option Text :=
  if s.logFile = [] || s.verbosity < leastVerbosity then none else some s.logFile

/-- A time that is over before the first check of it, in nanoseconds. -/
def shortestTime : Int := 1000

/-- The budget of a completion. A time of zero, or below, sets no bound, and one that is not over at
once is taken to last. -/
def Settings.budget (s : Settings) : Markup.Budget :=
  if 0 < s.timeout && s.timeout < shortestTime then .checks 0 else .unlimited

def homeFiles : List Text := Config.extensions.map fun (ending, _) => utf8 ".svgls" ++ ending

end SvgAssist.Command
