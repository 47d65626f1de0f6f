import SvgAssist.Completion.Complete
import SvgAssist.Completion.Hover
import SvgAssist.Server.Item
import SvgAssist.Server.Request
import SvgAssist.Server.Symbol

/-!
# Sessions

One client's session with the server: which documents it has open, and what it is answered. Each
request is answered from the document as it then is. A session serves nothing before it is
initialized, nor after a shutdown.
-/

namespace SvgAssist.Server

open Completion Grammar Markup

structure ClientHover where
  contents : Text
  range : ClientRange
deriving DecidableEq, Repr

inductive Answer where
  | nothing
  | capabilities
  | items (is : List Item)
  | hover (h : ClientHover)
  | folds (fs : List Fold)
  | symbols (ss : List Symbol)

structure Session where
  catalog : Catalog
  budget : Budget
  documents : Store
  initialized : Bool
  exitCode : Option Int

namespace Session

/-- A session before its first request. The budget is that of each single request. -/
def start (c : Catalog) (budget : Budget) : Session := ⟨c, budget, .empty, false, none⟩

def completion (s : Session) (uri : Text) (p : ClientPosition) : Answer :=
  match s.documents.get? uri with
  | none => .nothing
  | some d =>
    match complete s.catalog s.budget d.text (Text.ofClient d.text p) with
    | [] => .nothing
    | candidates => .items (candidates.map (Item.ofCandidate d.text))

def hover (s : Session) (uri : Text) (p : ClientPosition) : Answer :=
  match s.documents.get? uri with
  | none => .nothing
  | some d =>
    match Completion.hover s.catalog d.text (Text.ofClient d.text p) with
    | none => .nothing
    | some h => .hover ⟨h.contents, Text.toClientRange d.text h.range⟩

def foldingRange (s : Session) (uri : Text) : Answer :=
  match s.documents.get? uri with
  | none => .nothing
  | some d =>
    match Outline.parse s.budget d.text with
    | .error _ => .nothing
    | .ok o =>
      match Fold.ofOutline (.ofText d.text) o with
      | [] => .nothing
      | folds => .folds folds

def documentSymbol (s : Session) (uri : Text) : Answer :=
  match s.documents.get? uri with
  | none => .nothing
  | some d =>
    match Outline.parse s.budget d.text with
    | .error _ => .nothing
    | .ok o =>
      match o.roots with
      | [] => .nothing
      | roots => .symbols (Symbol.ofElements s.catalog (.ofText d.text) roots)

def textOf (s : Session) (uri : Text) : Text := ((s.documents.get? uri).map (·.text)).getD []

def serve (s : Session) : Request → Session × Answer
  | .setup => ({ s with initialized := true }, .capabilities)
  | .shutdown => ({ s with initialized := false }, .nothing)
  | .exit => ({ s with exitCode := some 0 }, .nothing)
  | .setTrace => (s, .nothing)
  | .didOpen d => ({ s with documents := s.documents.put d }, .nothing)
  | .didChange uri version changes =>
    let text := Change.applyAll (s.textOf uri) changes
    ({ s with documents := s.documents.put ⟨uri, version, text⟩ }, .nothing)
  | .didClose uri => ({ s with documents := s.documents.close uri }, .nothing)
  | .completion uri p => (s, s.completion uri p)
  | .hover uri p => (s, s.hover uri p)
  | .foldingRange uri => (s, s.foldingRange uri)
  | .documentSymbol uri => (s, s.documentSymbol uri)

def call (s : Session) (method : Text) (params : Option Json) : Session × Except Refusal Answer :=
  if !s.initialized && method ≠ utf8 "initialize" then (s, .error .notInitialized)
  else match Request.read method params with
    | .error refusal => (s, .error refusal)
    | .ok request =>
      let (s, answer) := s.serve request
      (s, .ok answer)

end Session

end SvgAssist.Server
