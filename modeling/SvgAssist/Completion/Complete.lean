import SvgAssist.Completion.Offer
import SvgAssist.Markup.Context
import SvgAssist.Markup.Enclosing

/-!
# Completion at a cursor

The candidates at a position of a text: what the author is typing is judged by the characters next
to the cursor, what surrounds it is recovered from the text before it, and the grammar says what
fits. Nothing is remembered from one request to the next.

`trace` tells what a request did, as spans in the order in which they end.
-/

namespace SvgAssist.Completion

open Grammar Markup

/-- The candidates after a `<`; none when the scan for the parent is cut off. -/
def tagCandidates (c : Catalog) (budget : Budget) (text : Text) (pos : Position) :
    List Candidate :=
  let before := Text.before text pos
  match precedingTag before with
  | none => [rootCandidate c pos]
  | some _ =>
    match parentElement budget before with
    | .error _ => []
    | .ok parent => elementCandidates c (parent.getD [])

def nameCandidates (c : Catalog) (text : Text) (pos : Position) : List Candidate :=
  match enclosingTag (Text.before text pos) with
  | none => []
  | some tag => attributeCandidates c tag.name tag.rest

def enumCandidates (c : Catalog) (text : Text) (pos : Position) : List Candidate :=
  match enclosingAttribute (Text.before text pos) with
  | none => []
  | some found =>
    if (c.element? found.tag).isNone then []
    else ((c.resolve found.tag found.name).map valueCandidates).getD []

def complete (c : Catalog) (budget : Budget) (text : Text) (pos : Position) : List Candidate :=
  match classifyAt text pos with
  | .tagOpen => tagCandidates c budget text pos
  | .attributeName => nameCandidates c text pos
  | .attributeValue => enumCandidates c text pos
  | .none => []

inductive TraceValue where
  | text (value : Text)
  | number (value : Int)
deriving DecidableEq, Repr

structure TraceSpan where
  name : Text
  attributes : List (Text × TraceValue)
  events : List Text
deriving DecidableEq, Repr

def parentSpan? (budget : Budget) (before : Text) : Option TraceSpan :=
  let size : Text × TraceValue := (utf8 "svgls.prefix_bytes", .number before.length)
  match precedingTag before with
  | none => none
  | some _ =>
    match parentElement budget before with
    | .error _ => some ⟨utf8 "parent-element", [size], [utf8 "exception"]⟩
    | .ok parent =>
      some ⟨utf8 "parent-element", [size, (utf8 "svgls.parent", .text (parent.getD []))], []⟩

def trace (c : Catalog) (budget : Budget) (text : Text) (pos : Position) : List TraceSpan :=
  let context := classifyAt text pos
  let inner := match context with
    | .tagOpen => (parentSpan? budget (Text.before text pos)).toList
    | _ => []
  inner ++ [⟨utf8 "complete",
    [(utf8 "svgls.context", .text context.label), (utf8 "svgls.line", .number pos.line),
      (utf8 "svgls.character", .number pos.column),
      (utf8 "svgls.candidates", .number (complete c budget text pos).length)], []⟩]

end SvgAssist.Completion
