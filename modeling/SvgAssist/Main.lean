import SvgAssist.Command.Run

/-!
# The program

Reads files, variables and the standard input for `SvgAssist.Command`, and writes what it answers.
The scratchpad is fed line by line and the server message by message, so that both can be talked to.
-/

namespace SvgAssist.Terminal

open Command

def bytesOf (text : Text) : ByteArray := ⟨text.toArray⟩

def textOf (bytes : ByteArray) : Text := bytes.data.toList

/-- A text as a name for the system; what is no UTF-8 names nothing. -/
def nameOf (text : Text) : Option String := String.fromUTF8? (bytesOf text)

def faultOf (name : String) : IO.Error → IO FileFault
  | .inappropriateType .. => do
    try discard (IO.FS.Handle.mk name .read); return .isDirectory
    catch _ => return .notDirectory
  | .invalidArgument .. => return if name.contains '\x00' then .badName else .longName
  | _ => return .missing

def readFile (path : Text) : IO (Except FileFault Text) :=
  match nameOf path with
  | none => return .error .missing
  | some name => do
    try return .ok (textOf (← IO.FS.readBinFile name))
    catch e => return .error (← faultOf name e)

def openAtEnd (path : Text) : IO (Except FileFault Unit) :=
  match nameOf path with
  | none => return .error .missing
  | some name => do
    try return .ok (← discard (IO.FS.Handle.mk name .append))
    catch e => return .error (← faultOf name e)

def getVariable? (name : Text) : IO (Option Text) :=
  match nameOf name with
  | none => return none
  | some name => do return (← IO.getEnv name).map utf8

def surroundings : Surroundings IO where
  file := readFile
  append := openAtEnd
  getVar? := getVariable?
  input := do return textOf (← (← IO.getStdin).readBinToEnd)
  home := getVariable? (utf8 "HOME")

def write (stream : IO.FS.Stream) (text : Text) : IO Unit := do
  stream.write (bytesOf text)
  stream.flush

partial def talk (s : Scratchpad) : IO Unit := do
  let line ← (← IO.getStdin).getLine
  if line.isEmpty then return
  let (next, printed) := s.enter (Text.withoutTail [Byte.newline] (utf8 line))
  write (← IO.getStderr) printed
  match next with
  | none => return
  | some s => talk s

partial def readBytes (stream : IO.FS.Stream) (count : Nat) (got : ByteArray) : IO ByteArray := do
  if count ≤ got.size then return got
  let more ← stream.read (.ofNat (count - got.size))
  if more.isEmpty then return got
  readBytes stream count (got ++ more)

partial def readHeader (stream : IO.FS.Stream) (length : Option Nat) : IO (Option Nat) := do
  let line ← stream.getLine
  if line.isEmpty then return none
  let line := Text.withoutReturn (Text.withoutTail [Byte.newline] (utf8 line))
  if line.isEmpty then return length
  readHeader stream ((Server.headerLength? line).or length)

partial def serve (s : Server.Session) : IO Unit := do
  let stream ← IO.getStdin
  let some length ← readHeader stream none | return
  let body ← readBytes stream length .empty
  let .ok v := Json.read (textOf body) | return
  let (s, reply) := s.receive (.ofJson v)
  if s.exitCode.isSome then return
  if let some reply := reply then write (← IO.getStdout) (Server.framed reply)
  serve s

def run (arguments : List Text) : IO UInt32 := do
  let prepared ← prepare surroundings arguments
  match prepared.task with
  | .pad s => do
    write (← IO.getStderr) prepared.notes
    talk s
    return 0
  | .serve s => do
    write (← IO.getStderr) prepared.notes
    serve s
    return 0
  | _ => do
    let o := prepared.finish []
    write (← IO.getStderr) o.errors
    write (← IO.getStdout) o.output
    return if o.failed then 1 else 0

end SvgAssist.Terminal

def main (arguments : List String) : IO UInt32 :=
  SvgAssist.Terminal.run (arguments.map SvgAssist.utf8)
