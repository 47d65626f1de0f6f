import SvgAssist.Json.Error
import SvgAssist.Json.Field
import SvgAssist.Server.Capabilities
import SvgAssist.Server.Store

/-!
# Requests

What a client can ask for, read from the name of a method and its parameters. Parameters that are
left out have the empty value of their type; a parameter of another type makes the request invalid.
-/

namespace SvgAssist.Server

open Json

inductive Request where
  | setup
  | shutdown
  | exit
  | setTrace
  | didOpen (d : Document)
  | didChange (uri : Text) (version : Int) (changes : List Change)
  | didClose (uri : Text)
  | completion (uri : Text) (position : ClientPosition)
  | hover (uri : Text) (position : ClientPosition)
  | foldingRange (uri : Text)
  | documentSymbol (uri : Text)

inductive Refusal where
  | unknownMethod
  | missingParams
  | invalidParams
  | notInitialized
deriving DecidableEq, Repr

def Refusal.message (method : Text) : Refusal → Text
  | .unknownMethod => utf8 "method not supported: " ++ method
  | .missingParams => Cause.message .endOfInput
  | .invalidParams => utf8 "invalid parameters"
  | .notInitialized => utf8 "server not initialized"

namespace Request

def position? (v : Json) : Option ClientPosition := do
  return ⟨← v.field uint32? 0 "line", ← v.field uint32? 0 "character"⟩

def range? (v : Json) : Option ClientRange := do
  return ⟨← position? (← v.inner "start"), ← position? (← v.inner "end")⟩

def rangeField? (v : Json) : Option (Option ClientRange) :=
  v.optional (fun r => do range? (← r.object?)) "range"

def uri? (v : Json) : Option Text := do (← v.inner "textDocument").field text? [] "uri"

def token? (v : Json) : Option Unit :=
  match v with
  | .string _ => some ()
  | v => v.int32?.map fun _ => ()

def progress? (v : Json) : Option Unit := do
  let _ ← v.optional token? "workDoneToken"
  let _ ← v.optional token? "partialResultToken"
  return ()

def change? (v : Json) : Option Change :=
  match v with
  | .object _ => do
    let range ← rangeField? v
    let _ ← v.optional uint32? "rangeLength"
    return ⟨range, ← v.field text? [] "text"⟩
  | .null => some ⟨none, []⟩
  | _ => none

def changes? (v : Json) : Option (List Change) :=
  v.field (fun list => match list with
    | .array items => items.mapM change?
    | _ => none) [] "contentChanges"

def trigger? (v : Json) : Option Unit := do
  let context ← v.inner "context"
  let _ ← context.field int32? 0 "triggerKind"
  let _ ← context.optional text? "triggerCharacter"
  return ()

def members? : Json → Option Json
  | .object ms => some (.object ms)
  | .null => some (.object [])
  | _ => none

def readers : List (String × (Json → Option Request)) := [
  ("initialize", fun v => if Capabilities.client.fits v then some .setup else none),
  ("$/setTrace", fun v => do let _ ← v.field text? [] "value"; return .setTrace),
  ("textDocument/didOpen", fun v => do
    let d ← v.inner "textDocument"
    let _ ← d.field text? [] "languageId"
    return .didOpen
      ⟨← d.field text? [] "uri", ← d.field int32? 0 "version", ← d.field text? [] "text"⟩),
  ("textDocument/didChange", fun v => do
    let d ← v.inner "textDocument"
    return .didChange (← d.field text? [] "uri") (← d.field int32? 0 "version") (← changes? v)),
  ("textDocument/didClose", fun v => do return .didClose (← uri? v)),
  ("textDocument/completion", fun v => do
    progress? v
    trigger? v
    return .completion (← uri? v) (← position? (← v.inner "position"))),
  ("textDocument/hover", fun v => do
    let _ ← v.optional token? "workDoneToken"
    return .hover (← uri? v) (← position? (← v.inner "position"))),
  ("textDocument/foldingRange", fun v => do progress? v; return .foldingRange (← uri? v)),
  ("textDocument/documentSymbol", fun v => do progress? v; return .documentSymbol (← uri? v))]

def read (method : Text) (params : Option Json) : Except Refusal Request :=
  if method = utf8 "shutdown" then .ok .shutdown
  else if method = utf8 "exit" then .ok .exit
  else match readers.find? fun (name, _) => utf8 name = method with
    | none => .error .unknownMethod
    | some (_, reader) =>
      match params with
      | none => .error .missingParams
      | some params =>
        match (members? params).bind reader with
        | none => .error .invalidParams
        | some request => .ok request

end Request

end SvgAssist.Server
