import SvgAssist.Completion.Candidate
import SvgAssist.Grammar.Catalog

/-!
# What a grammar offers

Candidates for elements, attributes and attribute values, drawn from a catalog.
-/

namespace SvgAssist.Completion

open Grammar

def rootName : Text := utf8 "svg"

/-- The root element with its namespace and its end tag, as it follows a `<` that is there. -/
def rootSkeleton : Text := utf8 "svg xmlns=\"http://www.w3.org/2000/svg\">\n\t\n</svg"

def describe (documentation : Text) (deprecated : Bool) : Text × Text :=
  if !deprecated then ([], documentation)
  else
    (utf8 "DEPRECATED",
      if documentation = [] then [] else documentation ++ utf8 "\n\n**DEPRECATED**")

/-- The insertion for an element, and where the cursor goes. A `>` stands after the cursor already,
so an element over several lines leaves the one of its end tag out. -/
def elementInsertion (name : Text) (e : Option Grammar.Element) : Text × Command :=
  if e.any (·.simple) then (name ++ utf8 " /", ⟨.left, 1, false⟩)
  else if e.any (·.inline) then
    (name ++ utf8 "></" ++ name ++ utf8 ">", ⟨.left, name.length + 3, false⟩)
  else (name ++ utf8 ">\n\t\n</" ++ name, ⟨.up, 1, false⟩)

def elementCandidate (name : Text) (e : Option Grammar.Element) : Candidate :=
  let (detail, documentation) := match e with
    | some e => describe e.documentation e.deprecated
    | none => ([], [])
  let (insertion, command) := elementInsertion name e
  ⟨name, .element, detail, documentation, insertion, none, command⟩

/-- The only candidate in a document without markup: the root element, put in at `pos`. -/
def rootCandidate (c : Catalog) (pos : Position) : Candidate :=
  { elementCandidate rootName (c.element? rootName) with
    insertion := []
    edit := some ⟨⟨pos, pos⟩, rootSkeleton⟩ }

/-- The elements that may be nested in `parent`: those it lists, or all when it lists none or is not
known. -/
def elementCandidates (c : Catalog) (parent : Text) : List Candidate :=
  match (c.element? parent).bind (·.children) with
  | some names => names.map fun name => elementCandidate name (c.element? name)
  | none => c.elements.map fun e => elementCandidate e.name (some e)

def attributeCandidate (name : Text) (a : Option Grammar.Attribute) : Candidate :=
  let (detail, documentation) := match a with
    | some a =>
      let (detail, documentation) := describe a.documentation a.deprecated
      (if a.type = [] then detail else a.type, documentation)
    | none => ([], [])
  ⟨name, .attribute, detail, documentation, name ++ utf8 "=\"\"", none,
    ⟨.left, 1, a.any (·.hasValues)⟩⟩

/-- Whether the text of a start tag gives an attribute. The space in front keeps a name from being
found inside of a longer one. -/
def givesAttribute (written name : Text) : Bool :=
  Text.holds written (utf8 " " ++ name ++ utf8 "=")

/-- The attributes of `tag` that `written`, the text of its start tag so far, does not give. -/
def attributeCandidates (c : Catalog) (tag written : Text) : List Candidate :=
  match c.element? tag with
  | none => []
  | some e =>
    (e.entries.filter fun entry => !givesAttribute written entry.name).map fun entry =>
      attributeCandidate entry.name (c.resolve tag entry.name)

def valueCandidate (v : EnumValue) : Candidate :=
  ⟨v.name, .value, [], v.documentation, v.name, none, ⟨.right, 1, false⟩⟩

/-- The values of an attribute that can be inserted as they are. -/
def valueCandidates (a : Grammar.Attribute) : List Candidate :=
  ((a.values.getD []).filter fun v => v.name ≠ [] && !v.isPlaceholder).map valueCandidate

end SvgAssist.Completion
