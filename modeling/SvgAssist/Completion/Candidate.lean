import SvgAssist.Position

/-!
# Completion candidates

What is proposed at a cursor: the text to insert, what it is, and where the cursor should go after
it was inserted.
-/

namespace SvgAssist.Completion

inductive Kind where
  | element
  | attribute
  | value
  | unknown
deriving DecidableEq, Repr, Inhabited

def Kind.label : Kind → Text
  | .element => utf8 "element"
  | .attribute => utf8 "attribute"
  | .value => utf8 "value"
  | .unknown => utf8 "unknown"

/-- How the cursor moves after an insertion: by characters to the left, by lines upwards, or by
characters to the right, out of the attribute value. Moves that no client knows are kept. -/
inductive Movement where
  | none
  | left
  | up
  | right
  | unknown
deriving DecidableEq, Repr, Inhabited

def Movement.label : Movement → Text
  | .left => utf8 "left"
  | .up => utf8 "up"
  | .right => utf8 "right"
  | .none | .unknown => utf8 "none"

/-- A movement and how far it goes. `valuesFollow` is set where the attribute just inserted has
values that can be completed at once. -/
structure Command where
  movement : Movement
  offset : Int
  valuesFollow : Bool
deriving DecidableEq, Repr, Inhabited

structure Edit where
  range : Range
  text : Text
deriving DecidableEq, Repr, Inhabited

/-- A proposal. `insertion` goes in at the cursor, unless there is an `edit`. -/
structure Candidate where
  label : Text
  kind : Kind
  detail : Text
  documentation : Text
  insertion : Text
  edit : Option Edit
  command : Command
deriving DecidableEq, Repr, Inhabited

def Candidate.text (c : Candidate) : Text :=
  match c.edit with
  | some edit => edit.text
  | none => c.insertion

end SvgAssist.Completion
