import SvgAssist.Command.Cursor
import SvgAssist.Command.Describe
import SvgAssist.Command.Invocation
import SvgAssist.Command.Listen
import SvgAssist.Command.Listing
import SvgAssist.Command.Settings
import SvgAssist.Completion.Complete
import SvgAssist.Config.File
import SvgAssist.Diagnostic.Sink
import SvgAssist.Grammar.Load
import SvgAssist.Grammar.Standard
import SvgAssist.Scratchpad
import SvgAssist.Server.Channel

/-!
# Running a command

What a command prints and how it ends, given its arguments and its surroundings. Files, variables
and the standard input are asked for in a monad, so that the same definition runs on real files and
on given ones.
-/

namespace SvgAssist.Command

open Completion Grammar

/-- What a command can ask for: the contents of a file, to open one for writing at its end, the
value of a variable, and the standard input. A home directory that is not known is `none`. -/
structure Surroundings (m : Type → Type) where
  file : Text → m (Except FileFault Text)
  append : Text → m (Except FileFault Unit)
  getVar? : Text → m (Option Text)
  input : m Text
  home : m (Option Text)

structure Outcome where
  failed : Bool
  output : Text
  errors : Text
  spans : List TraceSpan
deriving DecidableEq, Repr

inductive Failing where
  | usage (error : UsageError)
  | log (path : Text) (fault : FileFault)
  | document (path : Text) (fault : FileFault)
  | cursor (error : CursorError)
  | grammar (failure : Grammar.Failure) (source : Option Text)
  | unknownElement (name : Text)
  | listen (error : ListenError)

/-- A failure as it is reported. A grammar file that cannot be decoded is shown at the line in
question. -/
def Failing.report : Failing → Text
  | .usage e => e.message ++ utf8 "\n"
  | .log path fault => utf8 "log file error: " ++ fault.openMessage path ++ utf8 "\n"
  | .document path fault => utf8 "reading document: " ++ fault.message path ++ utf8 "\n"
  | .cursor e => e.message ++ utf8 "\n"
  | .grammar (.decode e) source =>
    Diagnostic.rendered .plain (fun _ => source)
      ⟨.error, utf8 "loading schema: " ++ e.fault.message, [⟨e.path, e.line, e.column, 0, []⟩], []⟩
  | .grammar failure _ => utf8 "loading schema: " ++ failure.message ++ utf8 "\n"
  | .unknownElement name => utf8 "unknown element: " ++ name ++ utf8 "\n"
  | .listen e => utf8 "lsp server error: " ++ e.message ++ utf8 "\n"

inductive Task where
  | print (output : Text) (spans : List TraceSpan)
  | pad (s : Scratchpad)
  | serve (s : Server.Session)
  | fail (reason : Failing)

structure Prepared where
  notes : Text
  traced : Bool
  task : Task

variable {m : Type → Type} [Monad m]

def firstFile? (w : Surroundings m) : List Text → m (Option (Text × Text))
  | [] => return none
  | path :: more => do
    match ← w.file path with
    | .ok text => return some (path, text)
    | .error _ => firstFile? w more

/-- The configuration file: the one that a flag names, or else one at home. -/
def configFile? (w : Surroundings m) (arguments : Parsed) : m (Option (Text × Text)) := do
  match arguments.text? "config" with
  | some (b :: path) => firstFile? w [b :: path]
  | _ =>
    match ← w.home with
    | none => return none
    | some home => firstFile? w (homeFiles.map (Path.join home))

def variableNames : List Text :=
  ["SVGLS_SCHEMA", "SVGLS_LOG_FILE", "SVGLS_LOG_VERBOSITY", "SVGLS_LOG",
    "SVGLS_COMPLETION_TIMEOUT", "SVGLS_COMPLETION", "SVGLS_TRACE"].map utf8

def readSettings (w : Surroundings m) (arguments : Parsed) : m (Settings × Text) := do
  let values ← variableNames.mapM fun name => do return (name, ← w.getVar? name)
  let (file, notes) ← match ← configFile? w arguments with
    | none => pure (.table [], [])
    | some (path, text) =>
      match ← (Config.table? w.getVar? path text).run with
      | none => pure (.table [], [])
      | some table => pure (table, utf8 "Using config file: " ++ path ++ utf8 "\n")
  let sources : Sources := ⟨fun name => (values.lookup name).join, file⟩
  return (Settings.read arguments sources, notes)

def openLog (w : Surroundings m) (settings : Settings) : m (Except Failing Unit) := do
  match settings.log? with
  | none => return .ok ()
  | some path => return (← w.append path).mapError (.log path)

def readCatalog (w : Surroundings m) (settings : Settings) : m (Except Failing Catalog) := do
  if settings.schema = [] then return .ok standard
  else
    let text ← w.file settings.schema
    return (loadFile (fun _ => text) settings.schema).mapError (.grammar · text.toOption)

def readDocument (w : Surroundings m) (path : Text) : m (Except Failing Text) := do
  if path = utf8 "-" then return .ok (← w.input)
  else
    return (← w.file path).mapError (.document path)

def defaultMark : Text := utf8 "|"

def cursorChoice (arguments : Parsed) : CursorChoice :=
  ⟨(arguments.integer? "line").getD 0, (arguments.integer? "col").getD 0,
    (arguments.text? "marker").getD defaultMark⟩

def completeTask (arguments : Parsed) (settings : Settings) (c : Catalog) (text : Text)
    (pos : Position) : Task :=
  let candidates := complete c settings.budget text pos
  .print
    (if arguments.switch? "json" = some true then candidatesJson candidates
      else candidatesText candidates)
    (trace c settings.budget text pos)

def serveTask (arguments : Parsed) (settings : Settings) (c : Catalog) : Task :=
  let session := Server.Session.start c settings.budget
  let service := (arguments.integer? "port").getD 0
  let address := (arguments.text? "websocket").getD []
  if arguments.switch? "stdio" = some true then .serve session
  else if 0 < service then .fail (.listen (listen (utf8 "localhost:" ++ Text.ofInt service)))
  else if address ≠ [] then .fail (.listen (listen address))
  else .serve session

def schemaTask (c : Catalog) : List Text → Task
  | [] => .print (elementTable c) []
  | name :: _ =>
    match c.element? name with
    | none => .fail (.unknownElement name)
    | some e => .print (elementText c e) []

def prepareTask (w : Surroundings m) (i : Invocation) (settings : Settings) :
    ExceptT Failing m Task := do
  let arguments := i.arguments
  ExceptT.mk (openLog w settings)
  ExceptT.mk (return i.check.mapError .usage)
  match i.verb with
  | .overview | .guidance => return .print [] []
  | .complete =>
    let text ← ExceptT.mk (readDocument w (arguments.operands.headD []))
    let (text, pos) ← ExceptT.mk (return (locate text (cursorChoice arguments)).mapError .cursor)
    let c ← ExceptT.mk (readCatalog w settings)
    return completeTask arguments settings c text pos
  | .lsp =>
    let c ← ExceptT.mk (readCatalog w settings)
    return serveTask arguments settings c
  | .repl =>
    let c ← ExceptT.mk (readCatalog w settings)
    return .pad (.start c settings.budget)
  | .schema =>
    let c ← ExceptT.mk (readCatalog w settings)
    return schemaTask c arguments.operands

/-- A command with its arguments read and its files loaded. The configuration is read before the
operands are counted. -/
def prepare (w : Surroundings m) (arguments : List Text) : m Prepared := do
  match Invocation.read arguments with
  | .error e => return ⟨[], false, .fail (.usage e)⟩
  | .ok i =>
    if i.verb = .overview || i.verb = .guidance then return ⟨[], false, .print [] []⟩
    else
      let (settings, notes) ← readSettings w i.arguments
      match ← (prepareTask w i settings).run with
      | .error reason => return ⟨notes, settings.trace, .fail reason⟩
      | .ok task => return ⟨notes, settings.trace, task⟩

def Prepared.finish (p : Prepared) (input : Text) : Outcome :=
  match p.task with
  | .print output spans => ⟨false, output, p.notes, if p.traced then spans else []⟩
  | .pad s => ⟨false, [], p.notes ++ s.run input, if p.traced then s.trace input else []⟩
  | .serve s => ⟨false, (s.receiveAll input).flatMap Server.framed, p.notes, []⟩
  | .fail reason => ⟨true, [], p.notes ++ reason.report, []⟩

end SvgAssist.Command
