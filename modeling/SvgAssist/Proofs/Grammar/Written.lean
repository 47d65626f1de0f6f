import SvgAssist.Grammar.Document
import SvgAssist.Json.Basic
import SvgAssist.Yaml.Node

/-!
# Written grammars

A grammar document as its author writes it, before it is laid out in a file: objects have the fields
that are given, in any order and each at most once, attribute entries and values are names or
objects, and elements may repeat or have no name. `toJson` is the tree of values that it is written
as, and `meaning` what it says. A YAML tree may show the same values (`Yaml.Shows`).
-/

namespace SvgAssist

namespace Yaml

mutual

/-- A YAML tree shows a tree of values: texts and truth values are scalars with the tag of their
kind, arrays are sequences, and objects are mappings with texts for keys. -/
inductive Shows : Node → Json → Prop
  | string (text : Text) (line : Nat) : Shows (.scalar strTag text line) (.string text)
  | bool {text : Text} {value : Bool} (line : Nat) (h : resolve boolTag text = .ok (.bool value)) :
    Shows (.scalar boolTag text line) (.bool value)
  | array {items : List Node} {values : List Json} (line : Nat) (h : ShowsAll items values) :
    Shows (.sequence seqTag items line) (.array values)
  | object {entries : List (Node × Node)} {members : List (Text × Json)} (line : Nat)
    (h : ShowsMembers entries members) : Shows (.mapping mapTag entries line) (.object members)

inductive ShowsAll : List Node → List Json → Prop
  | nil : ShowsAll [] []
  | cons {item : Node} {value : Json} {items : List Node} {values : List Json}
    (h : Shows item value) (hmore : ShowsAll items values) :
    ShowsAll (item :: items) (value :: values)

inductive ShowsMembers : List (Node × Node) → List (Text × Json) → Prop
  | nil : ShowsMembers [] []
  | cons (key : Text) (line : Nat) {node : Node} {value : Json} {entries : List (Node × Node)}
    {members : List (Text × Json)} (h : Shows node value) (hmore : ShowsMembers entries members) :
    ShowsMembers ((.scalar strTag key line, node) :: entries) ((key, value) :: members)

end

end Yaml

namespace Grammar

structure Layout (φ σ : Type) where
  key : φ → Text
  value : φ → Json
  set : σ → φ → σ

structure Fields {φ σ : Type} (layout : Layout φ σ) where
  all : List φ
  distinct : (all.map layout.key).Nodup

namespace Fields

variable {φ σ : Type} {layout : Layout φ σ}

def toJson (fields : Fields layout) : Json :=
  .object (fields.all.map fun field => (layout.key field, layout.value field))

def fill (fields : Fields layout) (initial : σ) : σ := fields.all.foldl layout.set initial

-- A tree that shows an object is a mapping of its members.
theorem exists_mapping {fields : Fields layout} {node : Yaml.Node}
    (hshows : Yaml.Shows node fields.toJson) :
    ∃ entries line, node = .mapping Yaml.mapTag entries line ∧ Yaml.ShowsMembers entries
      (fields.all.map fun field => (layout.key field, layout.value field)) := by
  rw [toJson] at hshows
  cases hshows with
  | object line hmembers => exact ⟨_, line, rfl, hmembers⟩

end Fields

namespace Written

/-! ## Values -/

inductive ValueField where
  | name (text : Text)
  | documentation (text : Text)

def valueLayout : Layout ValueField EnumValue where
  key
    | .name _ => utf8 "name"
    | .documentation _ => utf8 "documentation"
  value
    | .name text | .documentation text => .string text
  set v
    | .name text => { v with name := text }
    | .documentation text => { v with documentation := text }

inductive Value where
  | bare (name : Text)
  | full (fields : Fields valueLayout)

def Value.toJson : Value → Json
  | bare name => .string name
  | full fields => fields.toJson

def Value.meaning : Value → EnumValue
  | bare name => ⟨name, []⟩
  | full fields => fields.fill ⟨[], []⟩

/-! ## Attributes -/

inductive AttributeField where
  | name (text : Text)
  | documentation (text : Text)
  | deprecated (flag : Bool)
  | type (text : Text)
  | values (all : List Value)

def attributeLayout : Layout AttributeField Attribute where
  key
    | .name _ => utf8 "name"
    | .documentation _ => utf8 "documentation"
    | .deprecated _ => utf8 "deprecated"
    | .type _ => utf8 "type"
    | .values _ => utf8 "enum"
  value
    | .name text | .documentation text | .type text => .string text
    | .deprecated flag => .bool flag
    | .values all => .array (all.map Value.toJson)
  set a
    | .name text => { a with name := text }
    | .documentation text => { a with documentation := text }
    | .deprecated flag => { a with deprecated := flag }
    | .type text => { a with type := text }
    | .values all => { a with values := some (all.map Value.meaning) }

inductive Entry where
  | bare (name : Text)
  | inline (fields : Fields attributeLayout)

def Entry.toJson : Entry → Json
  | bare name => .string name
  | inline fields => fields.toJson

def Entry.meaning : Entry → AttributeEntry
  | bare name => .ref name
  | inline fields => .own (fields.fill .empty)

/-! ## Elements -/

inductive ElementField where
  | documentation (text : Text)
  | deprecated (flag : Bool)
  | simple (flag : Bool)
  | inline (flag : Bool)
  | children (names : List Text)
  | attributes (entries : List Entry)

def elementLayout : Layout ElementField Element where
  key
    | .documentation _ => utf8 "documentation"
    | .deprecated _ => utf8 "deprecated"
    | .simple _ => utf8 "simple"
    | .inline _ => utf8 "inline"
    | .children _ => utf8 "subElements"
    | .attributes _ => utf8 "attributes"
  value
    | .documentation text => .string text
    | .deprecated flag | .simple flag | .inline flag => .bool flag
    | .children names => .array (names.map Json.string)
    | .attributes entries => .array (entries.map Entry.toJson)
  set e
    | .documentation text => { e with documentation := text }
    | .deprecated flag => { e with deprecated := flag }
    | .simple flag => { e with simple := flag }
    | .inline flag => { e with inline := flag }
    | .children names => { e with children := some names }
    | .attributes entries => { e with attributes := some (entries.map Entry.meaning) }

/-! ## Documents -/

def element (definition : Text × Fields elementLayout) : Element :=
  { definition.2.fill .empty with name := definition.1 }

def globalLayout : Layout (Text × Fields attributeLayout) (List (Text × Option Attribute)) where
  key definition := definition.1
  value definition := definition.2.toJson
  set known definition := Document.put definition.1 (some (definition.2.fill .empty)) known

/-- The elements may have the same name more than once, the global attributes may not. -/
inductive DocumentField where
  | elements (definitions : List (Text × Fields elementLayout))
  | attributes (definitions : Fields globalLayout)

def documentLayout : Layout DocumentField Grammar.Document where
  key
    | .elements _ => utf8 "elements"
    | .attributes _ => utf8 "attributes"
  value
    | .elements definitions =>
      .object (definitions.map fun definition => (definition.1, definition.2.toJson))
    | .attributes definitions => definitions.toJson
  set d
    | .elements definitions => { d with elements := d.elements ++ definitions.map element }
    | .attributes definitions => { d with attributes := definitions.fill d.attributes }

abbrev Document := Fields documentLayout

def Document.meaning (d : Document) : Grammar.Document := d.fill .empty

end Written

end Grammar

end SvgAssist
