import SvgAssist.Yaml.Resolve

/-!
# YAML nodes

The tree of a YAML document. Every node has a tag in its short form and the line it begins on, from
one. An alias names the node it stands for by the number of its anchor, because that node may
contain the alias; `serial` tells aliases apart.
-/

namespace SvgAssist.Yaml

inductive Node where
  | scalar (tag text : Text) (line : Nat)
  | sequence (tag : Text) (items : List Node) (line : Nat)
  | mapping (tag : Text) (entries : List (Node × Node)) (line : Nat)
  | reference (name : Text) (target serial : Nat) (line : Nat)
deriving Inhabited

namespace Node

def tag : Node → Text
  | scalar tag _ _ | sequence tag _ _ | mapping tag _ _ => tag
  | reference _ _ _ _ => []

def text : Node → Text
  | scalar _ text _ => text
  | reference name _ _ _ => name
  | sequence _ _ _ | mapping _ _ _ => []

def line : Node → Nat
  | scalar _ _ line | sequence _ _ line | mapping _ _ line | reference _ _ _ line => line

def sameKind : Node → Node → Bool
  | scalar _ _ _, scalar _ _ _ | sequence _ _ _, sequence _ _ _ | mapping _ _ _, mapping _ _ _
  | reference _ _ _ _, reference _ _ _ _ => true
  | _, _ => false

mutual

def weight : Node → Nat
  | scalar _ _ _ | reference _ _ _ _ => 1
  | sequence _ items _ => weightOfItems items + 1
  | mapping _ entries _ => weightOfEntries entries + 1

def weightOfItems : List Node → Nat
  | [] => 0
  | item :: items => weight item + weightOfItems items

def weightOfEntries : List (Node × Node) → Nat
  | [] => 0
  | (key, value) :: entries => weight key + weight value + weightOfEntries entries

end

end Node

/-- A document: its root, if it has one, and the nodes that have an anchor, by number. No more than
`nesting` nodes are inside of each other, as long as no alias is inside of itself. -/
structure Document where
  root : Option Node
  anchored : List (Nat × Node)
  nesting : Nat
deriving Inhabited

namespace Document

def follow (d : Document) : Node → Node
  | .reference name target serial line =>
    let found := d.anchored.find? fun (n, _) => n == target
    (found.map (·.2)).getD (.reference name target serial line)
  | node => node

/-- The document of a root and of the nodes that have an anchor. Every alias is entered once, and
between two of them there are no more nodes than the document has, those with an anchor counted once
more. -/
def ofRoot (root : Option Node) (anchored : List (Nat × Node)) : Document :=
  let weight := (root.map Node.weight).getD 0 + total (anchored.map fun (_, node) => node.weight)
  ⟨root, anchored, weight * weight + 1⟩

end Document

def longTag : Text := utf8 "tag:yaml.org,2002:"

def shortTag (tag : Text) : Text :=
  if longTag.isPrefixOf tag then utf8 "!!" ++ tag.drop longTag.length else tag

def seqTag : Text := utf8 "!!seq"

def mapTag : Text := utf8 "!!map"

def nodeTag (tag default : Text) : Text :=
  if tag = [] || tag = utf8 "!" then default else shortTag tag

/-- The tag of a scalar. A plain one without a tag is judged by how it is written, and may be the
mark that asks for a merge. -/
def scalarTag (tag text : Text) (plain : Bool) : Text :=
  nodeTag tag
    (if !plain then strTag
    else if text = utf8 "<<" then mergeTag
    else (resolvePlain text).tag)

end SvgAssist.Yaml
