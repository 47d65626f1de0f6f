import SvgAssist.Grammar.Catalog

/-!
# Writing grammar entries

Short forms for entries of a grammar that is written down in Lean.
-/

namespace SvgAssist.Grammar

def attr (name type documentation : String) : Attribute :=
  ⟨utf8 name, utf8 documentation, false, utf8 type, none⟩

def Attribute.oneOf (a : Attribute) (names : List String) : Attribute :=
  { a with values := some (names.map fun name => ⟨utf8 name, []⟩) }

def Attribute.oneOfDocumented (a : Attribute) (values : List (String × String)) : Attribute :=
  { a with values := some (values.map fun (name, meaning) => ⟨utf8 name, utf8 meaning⟩) }

def Attribute.obsolete (a : Attribute) : Attribute := { a with deprecated := true }

def refs (names : List String) : List AttributeEntry := names.map fun name => .ref (utf8 name)

def owns (attributes : List Attribute) : List AttributeEntry := attributes.map .own

/-- An element that is written over several lines and takes any children. -/
def block (name documentation : String) (entries : List AttributeEntry) : Element :=
  ⟨utf8 name, utf8 documentation, false, false, false, none, some entries⟩

def simple (name documentation : String) (entries : List AttributeEntry) : Element :=
  { block name documentation entries with simple := true }

def inline (name documentation : String) (entries : List AttributeEntry) : Element :=
  { block name documentation entries with inline := true }

def Element.within (e : Element) (children : List String) : Element :=
  { e with children := some (children.map utf8) }

def Element.obsolete (e : Element) : Element := { e with deprecated := true }

end SvgAssist.Grammar
