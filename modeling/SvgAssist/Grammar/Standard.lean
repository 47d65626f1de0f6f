import SvgAssist.Grammar.Standard.Attributes
import SvgAssist.Grammar.Standard.Elements

/-!
# The standard grammar

The grammar of SVG 1.1, which is used when no other is chosen.
-/

namespace SvgAssist.Grammar

def standard : Catalog :=
  .ofDefinitions (Standard.elements.map some) (Standard.attributes.map fun a => (a.name, some a))

end SvgAssist.Grammar
