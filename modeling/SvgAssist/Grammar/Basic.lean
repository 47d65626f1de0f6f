import SvgAssist.Text.Basic

/-!
# Grammar entries

What a grammar says: elements, the attributes they take, the values an attribute may have, and which
elements may be nested in which. A list that was not given and an empty one are different things: an
element without a list of children takes any child, one with an empty list takes none.
-/

namespace SvgAssist.Grammar

structure EnumValue where
  name : Text
  documentation : Text
deriving DecidableEq, Repr, Inhabited

/-- Whether the value stands for a type or a pattern, such as `<length>`, and cannot be inserted as
it is. -/
def EnumValue.isPlaceholder (v : EnumValue) : Bool := v.name.head? == some Byte.less

structure Attribute where
  name : Text
  documentation : Text
  deprecated : Bool
  type : Text
  values : Option (List EnumValue)
deriving DecidableEq, Repr

namespace Attribute

def empty : Attribute := ⟨[], [], false, [], none⟩

instance : Inhabited Attribute := ⟨empty⟩

def hasValues (a : Attribute) : Bool := a.values.any (· ≠ [])

end Attribute

/-- An entry of an element's attribute list: the name of a global attribute, or a definition of its
own. -/
inductive AttributeEntry where
  | ref (name : Text)
  | own (definition : Attribute)
deriving DecidableEq, Repr, Inhabited

namespace AttributeEntry

def name : AttributeEntry → Text
  | ref name => name
  | own definition => definition.name

def definition? : AttributeEntry → Option Attribute
  | ref _ => none
  | own definition => some definition

end AttributeEntry

/-- An element: `simple` is written as one tag, `inline` with its end tag on the same line, and any
other over several lines. -/
structure Element where
  name : Text
  documentation : Text
  deprecated : Bool
  simple : Bool
  inline : Bool
  children : Option (List Text)
  attributes : Option (List AttributeEntry)
deriving DecidableEq, Repr

namespace Element

def empty : Element := ⟨[], [], false, false, false, none, none⟩

instance : Inhabited Element := ⟨empty⟩

def restrictsChildren (e : Element) : Bool := e.children.isSome

def entries (e : Element) : List AttributeEntry := e.attributes.getD []

end Element

end SvgAssist.Grammar
