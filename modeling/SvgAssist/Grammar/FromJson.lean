import SvgAssist.Grammar.Document
import SvgAssist.Json.Field
import SvgAssist.Number.Double

/-!
# Grammars from JSON

Decoding of a JSON tree. Field names match whatever their case, members that are no field are passed
over, `null` leaves a field as it is, and a field that is given twice is decoded twice, onto the
same value. The first member of another type than its field, in the order of the text, refuses the
whole.
-/

namespace SvgAssist.Grammar.FromJson

inductive Fault where
  | mismatch
  | element (name : Text)
  | notObject (shown : Text)
deriving DecidableEq, Repr

def mismatchText : Text := utf8 "<json type error>"

def Fault.message : Fault → Text
  | .mismatch => mismatchText
  | .element name => utf8 "element " ++ name ++ utf8 ": " ++ mismatchText
  | .notObject shown => utf8 "elements: expected object, got " ++ shown

def text (earlier : Text) : Json → Except Fault Text
  | .string t => .ok t
  | .null => .ok earlier
  | _ => .error .mismatch

def flag (earlier : Bool) : Json → Except Fault Bool
  | .bool b => .ok b
  | .null => .ok earlier
  | _ => .error .mismatch

def list {β : Type} (entry : Json → Except Fault β) : Json → Except Fault (Option (List β))
  | .array items => do return some (← items.mapM entry)
  | .null => .ok none
  | _ => .error .mismatch

/-- Decodes an object onto a value, member by member. Anything but an object or `null` does not
fit. -/
def object {α : Type} (member : α → Text → Json → Except Fault α) (value : α) :
    Json → Except Fault α
  | .object members => members.foldlM (fun x (key, v) => member x (Json.foldKey key) v) value
  | .null => .ok value
  | _ => .error .mismatch

def enumMember (x : EnumValue) (key : Text) (v : Json) : Except Fault EnumValue :=
  if key = utf8 "name" then do return { x with name := ← text x.name v }
  else if key = utf8 "documentation" then do
    return { x with documentation := ← text x.documentation v }
  else .ok x

def enumValue : Json → Except Fault EnumValue
  | .string name => .ok ⟨name, []⟩
  | v => object enumMember ⟨[], []⟩ v

def attributeMember (a : Attribute) (key : Text) (v : Json) : Except Fault Attribute :=
  if key = utf8 "name" then do return { a with name := ← text a.name v }
  else if key = utf8 "documentation" then do
    return { a with documentation := ← text a.documentation v }
  else if key = utf8 "deprecated" then do return { a with deprecated := ← flag a.deprecated v }
  else if key = utf8 "type" then do return { a with type := ← text a.type v }
  else if key = utf8 "enum" then do return { a with values := ← list enumValue v }
  else .ok a

def attributeBody (v : Json) : Except Fault Attribute := object attributeMember .empty v

def attributeEntry : Json → Except Fault AttributeEntry
  | .string name => .ok (.ref name)
  | v => do return .own (← attributeBody v)

/-- An element while it is decoded. `slots` has the children of all lists that were written over
each other, also those behind the end of the latest. -/
structure Draft where
  element : Element
  slots : List Text
deriving DecidableEq, Repr

/-- A list of children that is written over earlier ones, slot by slot: `null` keeps what a slot
had, or leaves it empty. -/
def overlay : List Text → List Json → Except Fault (List Text)
  | _, [] => .ok []
  | slots, v :: vs => do
    let slot ← text (slots.headD []) v
    return slot :: (← overlay (slots.drop 1) vs)

/-- The member that lists children. An empty list and `null` clear the slots. -/
def children (d : Draft) : Json → Except Fault Draft
  | .array [] => .ok ⟨{ d.element with children := some [] }, []⟩
  | .array items => do
    let names ← overlay d.slots items
    return ⟨{ d.element with children := some names }, names ++ d.slots.drop names.length⟩
  | .null => .ok ⟨{ d.element with children := none }, []⟩
  | _ => .error .mismatch

def elementMember (d : Draft) (key : Text) (v : Json) : Except Fault Draft :=
  let e := d.element
  if key = utf8 "documentation" then do
    return { d with element := { e with documentation := ← text e.documentation v } }
  else if key = utf8 "deprecated" then do
    return { d with element := { e with deprecated := ← flag e.deprecated v } }
  else if key = utf8 "simple" then do
    return { d with element := { e with simple := ← flag e.simple v } }
  else if key = utf8 "inline" then do
    return { d with element := { e with inline := ← flag e.inline v } }
  else if key = utf8 "subelements" then children d v
  else if key = utf8 "attributes" then do
    return { d with element := { e with attributes := ← list attributeEntry v } }
  else .ok d

def elementBody (v : Json) : Except Fault Element := do
  return (← object elementMember ⟨.empty, []⟩ v).element

def element (name : Text) (v : Json) : Except Fault Element :=
  match elementBody v with
  | .ok e => .ok { e with name := name }
  | .error _ => .error (.element name)

def shownNumber (literal : Text) : Text :=
  match Number.Double.ofLiteral? literal with
  | some d => d.compact
  | none => (Number.Double.largest (literal.head? = some Byte.hyphen)).compact

def shown : Json → Text
  | .null => utf8 "<nil>"
  | .bool true => utf8 "true"
  | .bool false => utf8 "false"
  | .number literal => shownNumber literal
  | .string t => t
  | .array _ => utf8 "["
  | .object _ => utf8 "\x7b"

def elements : Json → Except Fault (List Element)
  | .object members => members.mapM fun (name, v) => element name v
  | v => .error (.notObject (shown v))

def globals (known : List (Text × Option Attribute)) :
    Json → Except Fault (List (Text × Option Attribute))
  | .object members => members.foldlM
    (fun known (key, v) => match v with
      | .null => .ok (Document.put key none known)
      | v => do return Document.put key (some (← attributeBody v)) known)
    known
  | .null => .ok []
  | _ => .error .mismatch

def documentMember (d : Document) (key : Text) (v : Json) : Except Fault Document :=
  if key = utf8 "elements" then do return { d with elements := d.elements ++ (← elements v) }
  else if key = utf8 "attributes" then do return { d with attributes := ← globals d.attributes v }
  else .ok d

def document (v : Json) : Except Fault Document := object documentMember .empty v

end SvgAssist.Grammar.FromJson
