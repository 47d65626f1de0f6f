import SvgAssist.Json.Reader
import SvgAssist.Json.Writer
import SvgAssist.Server.Encode

/-!
# The channel to a client

Messages in both directions are JSON texts, each behind a header that gives its length. A message
with an `id` is a request and gets a reply; one without is a notification.
-/

namespace SvgAssist.Server

structure Message where
  id : Option Json
  method : Text
  params : Option Json

namespace Message

def ofJson (v : Json) : Message :=
  ⟨v.member? (utf8 "id"), ((v.member? (utf8 "method")).bind Json.text?).getD [],
    v.member? (utf8 "params")⟩

end Message

def Refusal.code : Refusal → Int
  | .unknownMethod => -32601
  | .missingParams | .invalidParams => -32602
  | .notInitialized => -32600

def reply (id : Json) (method : Text) (outcome : Except Refusal Answer) : Json :=
  let content := match outcome with
    | .ok answer => ("result", answer.toJson)
    | .error refusal => ("error", .record
        [("code", .ofInt refusal.code), ("message", .string (refusal.message method))])
  .record [("id", id), content, ("jsonrpc", .ofString "2.0")]

def Session.receive (s : Session) (m : Message) : Session × Option Json :=
  let (s, outcome) := s.call m.method m.params
  (s, m.id.map fun id => reply id m.method outcome)

def framed (v : Json) : Text :=
  let body := Json.compact v
  utf8 "Content-Length: " ++ Text.ofNat body.length ++ utf8 "\r\n\r\n" ++ body

def lengthHeader : Text := utf8 "Content-Length: "

def headerLength? (line : Text) : Option Nat :=
  if lengthHeader.isPrefixOf line then
    let digits := line.drop lengthHeader.length
    if digits ≠ [] && digits.all Byte.isDigit then
      some (digits.foldl (fun n b => n * 10 + (b.toNat - 0x30)) 0)
    else none
  else none

def unframe? (input : Text) : Option (Json × Nat) := do
  let headerSize ← Text.indexOf (utf8 "\r\n\r\n") input
  let header := (Text.lines (input.take headerSize)).map Text.withoutReturn
  let length ← header.findSome? headerLength?
  let body := (input.drop (headerSize + 4)).take length
  if body.length < length then none
  else
    let v ← (Json.read body).toOption
    return (v, headerSize + 4 + length)

/-- The replies to all messages of a text, until it ends, cannot be read, or asks to exit. -/
def Session.receiveAll (s : Session) (input : Text) : List Json :=
  match unframe? input with
  | none => []
  | some (v, size) =>
    if _h : size = 0 ∨ input = [] then []
    else
      let (s, answer) := s.receive (.ofJson v)
      if s.exitCode.isSome then []
      else answer.toList ++ s.receiveAll (input.drop size)
termination_by input.length
decreasing_by
  have : 0 < input.length := List.length_pos_iff.mpr fun h => _h (.inr h)
  have : size ≠ 0 := fun h => _h (.inl h)
  simp only [List.length_drop]
  omega

end SvgAssist.Server
