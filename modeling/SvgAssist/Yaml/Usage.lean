import SvgAssist.Yaml.Node

/-!
# How a document is used

An alias makes a node part of a document once more, so that a short text may stand for a very large
tree. Whoever walks through a document counts the nodes, and gives up when nearly all of them come
through aliases. No alias is entered while it is being walked through.
-/

namespace SvgAssist.Yaml

/-- How many nodes were walked through, how many of them in aliases, and the aliases that are being
walked through, innermost first. -/
structure Usage where
  nodes : Nat
  aliased : Nat
  aliases : List Nat
deriving DecidableEq, Repr

namespace Usage

def start : Usage := ⟨0, 0, []⟩

def fewNodes : Nat := 400000

def manyNodes : Nat := 4000000

/-- Whether too many of the nodes came through aliases: more than ninety-nine of a hundred, or, once
there are hundreds of thousands, a part that shrinks to a tenth. -/
def isExcessive (u : Usage) : Bool :=
  let range := manyNodes - fewNodes
  100 < u.aliased && 1000 < u.nodes &&
    (if u.nodes ≤ fewNodes then 99 * u.nodes < 100 * u.aliased
    else if manyNodes ≤ u.nodes then u.nodes < 10 * u.aliased
    else (99 * range - 89 * (u.nodes - fewNodes)) * u.nodes < 100 * range * u.aliased)

def count? (u : Usage) : Option Usage :=
  let u := { u with
    nodes := u.nodes + 1
    aliased := if u.aliases = [] then u.aliased else u.aliased + 1 }
  if u.isExcessive then none else some u

def enter? (u : Usage) (serial : Nat) : Option Usage :=
  if u.aliases.contains serial then none else some { u with aliases := serial :: u.aliases }

def leave (u : Usage) : Usage := { u with aliases := u.aliases.drop 1 }

end Usage

end SvgAssist.Yaml
