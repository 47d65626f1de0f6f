import SvgAssist.Grammar.Document
import SvgAssist.Text.Quoted
import SvgAssist.Yaml.Usage

/-!
# Grammars from YAML

Decoding of a YAML tree. Field names match exactly, and keys that are no field are passed over. A
scalar of any kind fits a text field, an empty one leaves its field as it is, and empty entries of
lists are dropped. Nodes of another kind than their field are collected as misfits and refuse the
whole in the end; an element is refused as soon as it has been read.

A merge key brings in the fields of another mapping, or of several, that the mapping itself does not
have. Inside of the list of elements it is an ordinary name.
-/

namespace SvgAssist.Grammar.FromYaml

open Yaml (Node)

inductive Target where
  | text
  | flag
  | texts
  | document
  | elements
  | element
  | elementSlot
  | attribute
  | attributeSlot
  | entries
  | entry
  | values
  | value
  | valueBody
  | attributes
deriving DecidableEq, Repr

def Target.label : Target → Text
  | .text => utf8 "string"
  | .flag => utf8 "bool"
  | .texts => utf8 "[]string"
  | .document => utf8 "schema.document"
  | .elements => utf8 "schema.orderedElements"
  | .element => utf8 "schema.ElementSchema"
  | .elementSlot => utf8 "*schema.ElementSchema"
  | .attribute => utf8 "schema.AttributeSchema"
  | .attributeSlot => utf8 "*schema.AttributeSchema"
  | .entries => utf8 "[]schema.AttributeRef"
  | .entry => utf8 "schema.AttributeRef"
  | .values => utf8 "[]schema.EnumValue"
  | .value => utf8 "schema.EnumValue"
  | .valueBody => utf8 "schema.plain"
  | .attributes => utf8 "map[string]*schema.AttributeSchema"

inductive Misfit where
  | kind (line : Nat) (tag text : Text) (target : Target)
  | key (line : Nat) (key : Text) (earlier : Nat)
  | field (line : Nat) (name : Text) (target : Target)
deriving DecidableEq, Repr

def excerpt (text : Text) : Text :=
  if 10 < text.length then text.take 7 ++ utf8 "..." else text

def Misfit.message : Misfit → Text
  | .kind line tag text target =>
    let shown := if tag = Yaml.seqTag || tag = Yaml.mapTag then text
      else utf8 " \x60" ++ excerpt text ++ utf8 "\x60"
    utf8 "line " ++ Text.ofNat line ++ utf8 ": cannot unmarshal " ++ tag ++ shown ++
      utf8 " into " ++ target.label
  | .key line name earlier =>
    utf8 "line " ++ Text.ofNat line ++ utf8 ": mapping key " ++ Text.quote name ++
      utf8 " already defined at line " ++ Text.ofNat earlier
  | .field line name target =>
    utf8 "line " ++ Text.ofNat line ++ utf8 ": field " ++ name ++
      utf8 " already set in type " ++ target.label

inductive Fault where
  | misfits (all : List Misfit)
  | scalar (fault : Yaml.ScalarFault)
  | containsItself (anchor : Text)
  | excessiveAliasing
  | mergeValue
  | elementsShape (line : Nat)
  | entryShape (line : Nat)
  | valueShape (line : Nat)
  | element (name : Text) (fault : Fault)
deriving Repr

def Fault.message : Fault → Text
  | .misfits all =>
    utf8 "yaml: unmarshal errors:\n  " ++ (utf8 "\n  ").intercalate (all.map Misfit.message)
  | .scalar fault => fault.message
  | .containsItself anchor => utf8 "yaml: anchor '" ++ anchor ++ utf8 "' value contains itself"
  | .excessiveAliasing => utf8 "yaml: document contains excessive aliasing"
  | .mergeValue => utf8 "yaml: map merge requires map or sequence of maps as the value"
  | .elementsShape line => utf8 "elements: line " ++ Text.ofNat line ++ utf8 ": expected mapping"
  | .entryShape line =>
    utf8 "attribute entry: line " ++ Text.ofNat line ++ utf8 ": expected name or mapping"
  | .valueShape line =>
    utf8 "enum value: line " ++ Text.ofNat line ++ utf8 ": expected string or mapping"
  | .element name fault => utf8 "element " ++ name ++ utf8 ": " ++ fault.message

/-- How far decoding has come: the misfits, latest first, and how the document was used. -/
structure Progress where
  misfits : List Misfit
  usage : Yaml.Usage
deriving DecidableEq, Repr

def Progress.start : Progress := ⟨[], .start⟩

abbrev Decoder (α : Type) := StateT Progress (Except Fault) α

def misfit (m : Misfit) : Decoder Unit := modify fun p => { p with misfits := m :: p.misfits }

/-- Runs a decoder on its own: misfits refuse what it decodes. -/
def Decoder.finish {α : Type} (decoder : Decoder α) : Except Fault α :=
  match decoder.run .start with
  | .error fault => .error fault
  | .ok (value, p) => if p.misfits = [] then .ok value else .error (.misfits p.misfits.reverse)

/-- Runs a decoder that counts nodes and aliases by itself. -/
def Decoder.apart {α : Type} (decoder : Decoder α) : Decoder α := do
  let p ← get
  let (value, inner) ← decoder.run .start
  set { p with misfits := inner.misfits ++ p.misfits }
  return value

def count : Decoder Unit := do
  let p ← get
  match p.usage.count? with
  | some usage => set { p with usage }
  | none => throw .excessiveAliasing

def visit {α : Type} (doc : Yaml.Document) (node : Node) (decode : Node → Decoder α) :
    Decoder α := do
  count
  match node with
  | .reference name _ serial _ =>
    let p ← get
    match p.usage.enter? serial with
    | none => throw (.containsItself name)
    | some usage =>
      set { p with usage }
      count
      let value ← decode (doc.follow node)
      modify fun p => { p with usage := p.usage.leave }
      return value
  | node => decode node

def repeatedKeys : List (Node × Node) → List Misfit
  | [] => []
  | (key, _) :: rest =>
    (rest.filter fun (other, _) => key.sameKind other && key.text == other.text).map
      (fun (other, _) => Misfit.key other.line other.text key.line) ++ repeatedKeys rest

def refuse (node : Node) (target : Target) : Decoder Unit :=
  let found := match node with
    | .mapping _ entries _ => repeatedKeys entries
    | _ => []
  if found = [] then misfit (.kind node.line node.tag node.text target)
  else modify fun p => { p with misfits := found.reverse ++ p.misfits }

def scalarValue (tag text : Text) : Decoder Yaml.Resolved :=
  match Yaml.resolve tag text with
  | .ok r => return r
  | .error fault => throw (.scalar fault)

def textOf : Node → Decoder (Option Text)
  | .scalar tag text _ => do
    match ← scalarValue tag text with
    | .null => return none
    | .bytes bytes => return some bytes
    | _ => return some text
  | other => do
    refuse other .text
    return none

def textValue (doc : Yaml.Document) (node : Node) : Decoder (Option Text) := visit doc node textOf

/-- The words that are truth values only where one is wanted. -/
def flagWord? (text : Text) : Option Bool :=
  if (["y", "Y", "yes", "Yes", "YES", "on", "On", "ON"].map utf8).contains text then some true
  else if (["n", "N", "no", "No", "NO", "off", "Off", "OFF"].map utf8).contains text then some false
  else none

def flagOf : Node → Decoder (Option Bool)
  | .scalar tag text line => do
    let found ← match ← scalarValue tag text with
      | .null => return none
      | .bool b => pure (some b)
      | .text => pure (flagWord? text)
      | .bytes bytes => pure (flagWord? bytes)
      | _ => pure none
    if found.isNone then refuse (.scalar tag text line) .flag
    return found
  | other => do
    refuse other .flag
    return none

def flagValue (doc : Yaml.Document) (node : Node) : Decoder (Option Bool) := visit doc node flagOf

/-- The entries of a list that could be decoded. An empty node stands for no list at all; a node
that is no list leaves `earlier`. -/
def listValue {β : Type} (doc : Yaml.Document) (target : Target)
    (entry : Node → Decoder (Option β)) (earlier : Option (List β)) (node : Node) :
    Decoder (Option (List β)) :=
  visit doc node fun node =>
    match node with
    | .sequence _ items _ => do return some (← items.filterMapM fun item => visit doc item entry)
    | .scalar tag text line => do
      if (← scalarValue tag text) = .null then return none
      else
        refuse (.scalar tag text line) target
        return earlier
    | other => do
      refuse other target
      return earlier

structure Shape (σ : Type) where
  target : Target
  isRecord : Bool
  field : σ → Text → Node → Option (Decoder σ)

def isMergeKey : Node → Bool
  | .scalar tag text _ => text == utf8 "<<" && tag == Yaml.mergeTag
  | _ => false

def keyText? (doc : Yaml.Document) (key : Node) : Decoder (Option Text) :=
  visit doc key fun key =>
    match key with
    | .scalar tag text _ => do
      match ← scalarValue tag text with
      | .text => return some text
      | .bytes bytes => return some bytes
      | _ => return none
    | _ => return none

/-- Decodes the fields of one mapping, merge keys apart. `seen` has the keys that may not be set any
more, while a merge is going on, and `done` the fields that this mapping has set. -/
def fields {σ : Type} (doc : Yaml.Document) (shape : Shape σ) (seen : Option (List Text))
    (done : List Text) (value : σ) : List (Node × Node) → Decoder (σ × Option (List Text))
  | [] => return (value, seen)
  | (key, node) :: rest =>
    if isMergeKey key then fields doc shape seen done value rest
    else do
      match ← textValue doc key with
      | none => fields doc shape seen done value rest
      | some name =>
        if seen.any (·.contains name) then fields doc shape seen done value rest
        else
          let seen := seen.map (name :: ·)
          match shape.field value name node with
          | none => fields doc shape seen done value rest
          | some step =>
            if shape.isRecord && done.contains name then
              misfit (.field key.line name shape.target)
              fields doc shape seen done value rest
            else fields doc shape seen (name :: done) (← step) rest

/-- Decodes a mapping and what is merged into it. No alias is entered while it is being decoded, so
merging comes to an end within `fuel` mappings inside of each other. -/
def merged {σ : Type} (doc : Yaml.Document) (shape : Shape σ) :
    Nat → Option (List Text) → σ → List (Node × Node) → Decoder (σ × Option (List Text))
  | 0, seen, value, _ => return (value, seen)
  | fuel + 1, seen, value, entries => do
    let repeated := repeatedKeys entries
    if repeated ≠ [] then
      modify fun p => { p with misfits := repeated.reverse ++ p.misfits }
      return (value, seen)
    else
      let (value, seen) ← fields doc shape seen [] value entries
      match entries.reverse.find? fun (key, _) => isMergeKey key with
      | none => return (value, seen)
      | some (_, source) =>
        let taken ← match seen with
          | some seen => pure seen
          | none => entries.filterMapM fun (key, _) => keyText? doc key
        let one (acc : σ × Option (List Text)) (node : Node) : Decoder (σ × Option (List Text)) :=
          match doc.follow node with
          | .mapping _ _ _ => visit doc node fun node =>
            match node with
            | .mapping _ entries _ => merged doc shape fuel acc.2 acc.1 entries
            | _ => return acc
          | _ => throw .mergeValue
        match source with
        | .sequence _ items _ => items.foldlM one (value, some taken)
        | other => one (value, some taken) other

def recordOf {σ : Type} (doc : Yaml.Document) (shape : Shape σ) (value : σ) : Node → Decoder σ
  | .mapping _ entries _ => do
    return (← merged doc shape doc.nesting none value entries).1
  | .scalar tag text line => do
    if (← scalarValue tag text) = .null then return value
    else
      refuse (.scalar tag text line) shape.target
      return value
  | other => do
    refuse other shape.target
    return value

def setText {σ : Type} (doc : Yaml.Document) (node : Node) (value : σ) (set : Text → σ) :
    Decoder σ := do
  match ← textValue doc node with
  | some t => return set t
  | none => return value

def setFlag {σ : Type} (doc : Yaml.Document) (node : Node) (value : σ) (set : Bool → σ) :
    Decoder σ := do
  match ← flagValue doc node with
  | some b => return set b
  | none => return value

/-- Decodes a node that has the tag of an empty one. It is empty if it is a scalar; otherwise it may
be decoded all the same. -/
def taggedEmpty {β : Type} (target : Target) (mapping : Option (Decoder β)) (node : Node) :
    Decoder (Option β) :=
  match node, mapping with
  | .scalar tag text _, _ => do
    discard (scalarValue tag text)
    return none
  | .mapping _ _ _, some decode => do return some (← decode)
  | other, _ => do
    refuse other target
    return none

def enumShape (doc : Yaml.Document) (target : Target) : Shape EnumValue where
  target := target
  isRecord := true
  field v name node :=
    if name = utf8 "name" then some (setText doc node v fun t => { v with name := t })
    else if name = utf8 "documentation" then
      some (setText doc node v fun t => { v with documentation := t })
    else none

def enumValue (doc : Yaml.Document) (node : Node) : Decoder (Option EnumValue) :=
  let body (target : Target) := recordOf doc (enumShape doc target) ⟨[], []⟩ node
  if node.tag = Yaml.nullTag then taggedEmpty .value (some (body .value)) node
  else
    match node with
    | .scalar _ text _ => return some ⟨text, []⟩
    | .mapping _ _ _ => do return some (← (do count; body .valueBody : Decoder EnumValue).apart)
    | other => throw (.valueShape other.line)

def attributeShape (doc : Yaml.Document) : Shape Attribute where
  target := .attribute
  isRecord := true
  field a name node :=
    if name = utf8 "name" then some (setText doc node a fun t => { a with name := t })
    else if name = utf8 "documentation" then
      some (setText doc node a fun t => { a with documentation := t })
    else if name = utf8 "deprecated" then
      some (setFlag doc node a fun b => { a with deprecated := b })
    else if name = utf8 "type" then some (setText doc node a fun t => { a with type := t })
    else if name = utf8 "enum" then some do
      return { a with values := ← listValue doc .values (enumValue doc) a.values node }
    else none

def attributeBody (doc : Yaml.Document) (node : Node) : Decoder Attribute :=
  recordOf doc (attributeShape doc) .empty node

def entryShape : Shape AttributeEntry where
  target := .entry
  isRecord := true
  field _ _ _ := none

def attributeEntry (doc : Yaml.Document) (node : Node) : Decoder (Option AttributeEntry) :=
  if node.tag = Yaml.nullTag then
    taggedEmpty .entry (some (recordOf doc entryShape (.ref []) node)) node
  else
    match node with
    | .scalar _ text _ => return some (.ref text)
    | .mapping _ _ _ => do
      return some (.own (← (do count; attributeBody doc node : Decoder Attribute).apart))
    | other => throw (.entryShape other.line)

def elementShape (doc : Yaml.Document) : Shape Element where
  target := .element
  isRecord := true
  field e name node :=
    if name = utf8 "documentation" then
      some (setText doc node e fun t => { e with documentation := t })
    else if name = utf8 "deprecated" then
      some (setFlag doc node e fun b => { e with deprecated := b })
    else if name = utf8 "simple" then some (setFlag doc node e fun b => { e with simple := b })
    else if name = utf8 "inline" then some (setFlag doc node e fun b => { e with inline := b })
    else if name = utf8 "subElements" then some do
      return { e with children := ← listValue doc .texts textOf e.children node }
    else if name = utf8 "attributes" then some do
      let attributes ← listValue doc .entries (attributeEntry doc) e.attributes node
      return { e with attributes }
    else none

def elementBody (doc : Yaml.Document) (node : Node) : Decoder Element :=
  recordOf doc (elementShape doc) .empty node

def element (doc : Yaml.Document) (key body : Node) : Except Fault Element :=
  match (visit doc body (elementBody doc)).finish with
  | .ok e => .ok { e with name := key.text }
  | .error fault => .error (.element key.text fault)

def nameless (doc : Yaml.Document) (node : Node) : Decoder Element := do
  if node.tag = Yaml.nullTag then
    return (← taggedEmpty .elementSlot none node).getD .empty
  else elementBody doc node

def elements (doc : Yaml.Document) (earlier : List Element) (node : Node) :
    Decoder (List Element) :=
  visit doc node fun node =>
    if node.tag = Yaml.nullTag then
      match node with
      | .sequence _ items _ => items.mapM fun item => visit doc item (nameless doc)
      | .mapping _ _ _ => do
        refuse node .elements
        return earlier
      | node => do
        discard (taggedEmpty (β := Unit) .elements none node)
        return []
    else
      match node with
      | .mapping _ entries _ => do
        let own ← entries.mapM fun (key, body) => (element doc key body : Except Fault Element)
        return earlier ++ own
      | other => throw (.elementsShape other.line)

def globalShape (doc : Yaml.Document) : Shape (List (Text × Option Attribute)) where
  target := .attributes
  isRecord := false
  field known name node := some do
    let found ← visit doc node fun node =>
      if node.tag = Yaml.nullTag then taggedEmpty .attributeSlot none node
      else do return some (← attributeBody doc node)
    return Document.put name found known

/-- The global attributes. An empty node takes them all away. -/
def globals (doc : Yaml.Document) (known : List (Text × Option Attribute)) (node : Node) :
    Decoder (List (Text × Option Attribute)) :=
  visit doc node fun node =>
    match node with
    | .scalar tag text line => do
      if (← scalarValue tag text) = .null then return []
      else
        refuse (.scalar tag text line) .attributes
        return known
    | node => recordOf doc (globalShape doc) known node

def documentShape (doc : Yaml.Document) : Shape Document where
  target := .document
  isRecord := true
  field d name node :=
    if name = utf8 "elements" then some do
      return { d with elements := ← elements doc d.elements node }
    else if name = utf8 "attributes" then some do
      return { d with attributes := ← globals doc d.attributes node }
    else none

def document (doc : Yaml.Document) : Except Fault Document :=
  match doc.root with
  | none => .ok .empty
  | some root =>
    (do count; visit doc root (recordOf doc (documentShape doc) .empty) : Decoder Document).finish

end SvgAssist.Grammar.FromYaml
