import SvgAssist.Grammar.Basic

/-!
# Catalogs

A grammar that is ready for look-ups. An element that is defined twice keeps its first place and its
last definition. `resolve` finds what an attribute means on an element: the element's own definition
if it has one, and the global attribute of that name otherwise.
-/

namespace SvgAssist.Grammar

structure Catalog where
  elements : List Element
  attributes : List (Text × Attribute)
deriving DecidableEq, Repr, Inhabited

namespace Catalog

/-- Adds a definition: in the place of an earlier one of its name, else at the end. -/
def define (elements : List Element) (e : Element) : List Element :=
  if elements.any (·.name == e.name) then
    elements.map fun old => if old.name == e.name then e else old
  else elements ++ [e]

def named (key : Text) (a : Attribute) : Attribute :=
  if a.name = [] then { a with name := key } else a

/-- The catalog of some definitions; entries that are missing are passed over. -/
def ofDefinitions (elements : List (Option Element))
    (attributes : List (Text × Option Attribute)) : Catalog where
  elements := (elements.filterMap id).foldl define []
  attributes := attributes.filterMap fun (key, a) => a.map fun a => (key, named key a)

def size (c : Catalog) : Nat := c.elements.length

def element? (c : Catalog) (name : Text) : Option Element := c.elements.find? (·.name == name)

def attribute? (c : Catalog) (key : Text) : Option Attribute :=
  (c.attributes.find? fun (k, _) => k == key).map (·.2)

/-- What the attribute `name` means on `element`. The first entry of that name in the element's list
decides; attributes that the element does not list are looked up globally. -/
def resolve (c : Catalog) (element name : Text) : Option Attribute :=
  match c.element? element with
  | none => c.attribute? name
  | some e =>
    match (e.entries.find? (·.name == name)).bind (·.definition?) with
    | some a => some a
    | none => c.attribute? name

def undeclared (c : Catalog) : List (Text × Text) :=
  c.elements.flatMap fun e =>
    ((e.children.getD []).filter fun child => (c.element? child).isNone).map (e.name, ·)

end Catalog

end SvgAssist.Grammar
