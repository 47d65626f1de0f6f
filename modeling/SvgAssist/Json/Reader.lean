import SvgAssist.Json.Token

/-!
# Reading JSON

A document is read token by token. The containers that are still open are kept as a list of frames,
innermost first, each with what it holds so far; `Expect` says what may come next. So the reader
needs no recursion on the nesting, and its only limit is the stated depth.
-/

namespace SvgAssist.Json

/-- An open container. Its contents are in reverse; a `member` has read a key and waits for its
value. -/
inductive Frame where
  | array (items : List Json)
  | object (members : List (Text × Json))
  | member (members : List (Text × Json)) (key : Text)

inductive Expect where
  | value
  | itemOrClose
  | keyOrClose
  | key
  | colon
  | afterItem
  | afterMember
  | nothing (document : Json)

def maxDepth : Nat := 10000

def finish (value : Json) : List Frame → Expect × List Frame
  | [] => (.nothing value, [])
  | .array items :: frames => (.afterItem, .array (value :: items) :: frames)
  | .member members key :: frames => (.afterMember, .object ((key, value) :: members) :: frames)
  | .object members :: frames => (.afterMember, .object members :: frames)

def openFrame (offset : Nat) (expect : Expect) (frame : Frame) (frames : List Frame) :
    Except SyntaxError (Expect × List Frame × Nat) :=
  if frames.length < maxDepth then .ok (expect, frame :: frames, 1)
  else .error ⟨.tooDeep, offset⟩

def shift {α : Type} (offset : Nat) (result : Except SyntaxError α) : Except SyntaxError α :=
  result.mapError fun e => { e with count := offset + e.count }

def readWord (offset : Nat) (name : Text) (value : Json) (frames : List Frame) (rest : Text) :
    Except SyntaxError (Expect × List Frame × Nat) := do
  let size ← shift offset (wordSize name 1 (name.drop 1) rest)
  let (expect, frames) := finish value frames
  return (expect, frames, size)

/-- A value that begins with the byte `b` at `offset`: what may come next, the open containers and
the size of what was read. -/
def readValue (offset : Nat) (frames : List Frame) (b : UInt8) (rest : Text) :
    Except SyntaxError (Expect × List Frame × Nat) :=
  match b with
  | 0x7b => openFrame offset .keyOrClose (.object []) frames
  | 0x5b => openFrame offset .itemOrClose (.array []) frames
  | 0x22 => do
    let size ← shift offset (stringSize 1 rest)
    let (expect, frames) := finish (.string (unescape (rest.take (size - 2)))) frames
    return (expect, frames, size)
  | 0x74 => readWord offset (utf8 "true") (.bool true) frames rest
  | 0x66 => readWord offset (utf8 "false") (.bool false) frames rest
  | 0x6e => readWord offset (utf8 "null") .null frames rest
  | _ =>
    if b = Byte.hyphen || Byte.isDigit b then do
      let state := if b = Byte.hyphen then .sign else if b = 0x30 then .zero else .whole
      let size ← shift offset (numberSize state 1 rest)
      let (expect, frames) := finish (.number ((b :: rest).take size)) frames
      return (expect, frames, size)
    else unexpected b rest .value offset

def readKey (offset : Nat) (frames : List Frame) (b : UInt8) (rest : Text) :
    Except SyntaxError (Expect × List Frame × Nat) :=
  if b = Byte.doubleQuote then do
    let size ← shift offset (stringSize 1 rest)
    let key := unescape (rest.take (size - 2))
    match frames with
    | .object members :: frames => return (.colon, .member members key :: frames, size)
    | frames => return (.colon, frames, size)
  else unexpected b rest .key offset

def closeFrame (frames : List Frame) : Expect × List Frame × Nat :=
  let (expect, frames) := match frames with
    | .array items :: frames => finish (.array items.reverse) frames
    | .object members :: frames => finish (.object members.reverse) frames
    | frames => finish .null frames
  (expect, frames, 1)

def readToken (offset : Nat) (expect : Expect) (frames : List Frame) (b : UInt8) (rest : Text) :
    Except SyntaxError (Expect × List Frame × Nat) :=
  if isSpace b then .ok (expect, frames, 1)
  else
    match expect with
    | .value => readValue offset frames b rest
    | .itemOrClose => if b = 0x5d then .ok (closeFrame frames) else readValue offset frames b rest
    | .keyOrClose => if b = 0x7d then .ok (closeFrame frames) else readKey offset frames b rest
    | .key => readKey offset frames b rest
    | .colon =>
      if b = Byte.colon then .ok (.value, frames, 1) else unexpected b rest .afterKey offset
    | .afterItem =>
      if b = 0x2c then .ok (.value, frames, 1)
      else if b = 0x5d then .ok (closeFrame frames)
      else unexpected b rest .afterItem offset
    | .afterMember =>
      if b = 0x2c then .ok (.key, frames, 1)
      else if b = 0x7d then .ok (closeFrame frames)
      else unexpected b rest .afterMember offset
    | .nothing _ => unexpected b rest .afterDocument offset

def readFrom (offset : Nat) (expect : Expect) (frames : List Frame) :
    Text → Except SyntaxError Json
  | [] =>
    match expect with
    | .nothing document => .ok document
    | _ => .error ⟨.endOfInput, offset⟩
  | b :: rest =>
    match readToken offset expect frames b rest with
    | .error e => .error e
    | .ok (expect, frames, size) =>
      readFrom (offset + size) expect frames (rest.drop (size - 1))
termination_by text => text.length
decreasing_by simp only [List.length_drop, List.length_cons]; omega

def read (text : Text) : Except SyntaxError Json := readFrom 0 .value [] text

end SvgAssist.Json
