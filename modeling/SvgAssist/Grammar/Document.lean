import SvgAssist.Grammar.Catalog

/-!
# Grammar documents

What a grammar file says before it is made into a catalog: element definitions in file order, names
possibly repeated, and a map of global attributes in which a key may have no attribute.
-/

namespace SvgAssist.Grammar

structure Document where
  elements : List Element
  attributes : List (Text × Option Attribute)
deriving DecidableEq, Repr, Inhabited

namespace Document

def empty : Document := ⟨[], []⟩

def put {α : Type} (key : Text) (value : α) (entries : List (Text × α)) : List (Text × α) :=
  if entries.any (·.1 == key) then
    entries.map fun entry => if entry.1 == key then (key, value) else entry
  else entries ++ [(key, value)]

inductive Fault where
  | noElements
  | emptyName
deriving DecidableEq, Repr

def Fault.message : Fault → Text
  | .noElements => utf8 "schema declares no elements"
  | .emptyName => utf8 "schema declares an element with an empty name"

def toCatalog (d : Document) : Except Fault Catalog :=
  if d.elements = [] then .error .noElements
  else if d.elements.any (·.name == []) then .error .emptyName
  else .ok (.ofDefinitions (d.elements.map some) d.attributes)

end Document

end SvgAssist.Grammar
