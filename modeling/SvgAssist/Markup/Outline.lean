import SvgAssist.Markup.Event

/-!
# Outlines

The element tree of a document, folded from its tag events. An element runs from its `<` to just
past its end tag; a self-closed element is its one tag; an element that is never closed runs to the
end tag of the ancestor that closes it, or to the end of the document. End tags that match no open
element are ignored.
-/

namespace SvgAssist.Markup

structure Span where
  start : Nat
  stop : Nat
deriving DecidableEq, Repr

inductive Element where
  | mk (name : Text) (span : Span) (children : List Element)

namespace Element

def name : Element → Text
  | mk name _ _ => name

def span : Element → Span
  | mk _ span _ => span

def children : Element → List Element
  | mk _ _ children => children

end Element

structure Outline where
  roots : List Element
  comments : List Span

/-- An element whose end is not known yet. Its children so far are in reverse. -/
structure OpenElement where
  name : Text
  start : Nat
  children : List Element

def OpenElement.close (e : OpenElement) (stop : Nat) : Element :=
  .mk e.name ⟨e.start, stop⟩ e.children.reverse

/-- An outline under construction: the open elements, innermost first, and, in reverse, the roots
and comments that are complete. -/
structure Draft where
  stack : List OpenElement
  roots : List Element
  comments : List Span

namespace Draft

def empty : Draft := ⟨[], [], []⟩

def add (e : Element) (d : Draft) : Draft :=
  match d.stack with
  | [] => { d with roots := e :: d.roots }
  | top :: below => { d with stack := { top with children := e :: top.children } :: below }

def closeTop (stop : Nat) (d : Draft) : Draft :=
  match d.stack with
  | [] => d
  | top :: below => add (top.close stop) { d with stack := below }

def closeMany (stop : Nat) : Nat → Draft → Draft
  | 0, d => d
  | n + 1, d => closeMany stop n (closeTop stop d)

/-- One tag event. An end tag ends the nearest open element of its name, and those inside of it
where the tag begins. -/
def step (d : Draft) (e : Event) : Draft :=
  match e.kind with
  | .opened => { d with stack := ⟨e.name, e.start, []⟩ :: d.stack }
  | .selfClosed => add (.mk e.name ⟨e.start, e.stop⟩ []) d
  | .comment => { d with comments := ⟨e.start, e.stop⟩ :: d.comments }
  | .closed =>
    match d.stack.findIdx? (·.name == e.name) with
    | none => d
    | some inner => closeTop e.stop (closeMany e.start inner d)

def finish (stop : Nat) (d : Draft) : Outline :=
  let d := closeMany stop d.stack.length d
  ⟨d.roots.reverse, d.comments.reverse⟩

end Draft

namespace Outline

def parse (budget : Budget) (text : Text) : Except Interrupted Outline :=
  (scan budget text).map fun events => (events.foldl Draft.step .empty).finish text.length

end Outline

mutual

def Element.walk (depth : Nat) : Element → List (Nat × Text × Span)
  | .mk name span children => (depth, name, span) :: Element.walkAll (depth + 1) children

def Element.walkAll (depth : Nat) : List Element → List (Nat × Text × Span)
  | [] => []
  | e :: es => e.walk depth ++ Element.walkAll depth es

end

def Outline.walk (o : Outline) : List (Nat × Text × Span) := Element.walkAll 0 o.roots

end SvgAssist.Markup
