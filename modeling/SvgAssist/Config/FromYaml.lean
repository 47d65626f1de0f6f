import SvgAssist.Config.Setting
import SvgAssist.Yaml.Read
import SvgAssist.Yaml.Usage

/-!
# Settings in YAML

A configuration file in YAML is a mapping, or nothing at all. A merge key brings in the entries of
another mapping, or of several, that the mapping itself does not have. Keys are texts; a mapping
inside of another may have any scalars as keys, which then stand for their text.
-/

namespace SvgAssist.Config.FromYaml

open Yaml (Node)

abbrev Reading (α : Type) := StateT Yaml.Usage Option α

def count : Reading Unit := do set (← (← get).count?)

def visit {α : Type} (doc : Yaml.Document) (node : Node) (read : Node → Reading α) :
    Reading α := do
  count
  match node with
  | .reference _ _ serial _ =>
    set (← (← get).enter? serial)
    count
    let value ← read (doc.follow node)
    modify Yaml.Usage.leave
    return value
  | node => read node

def settingOf (text : Text) : Yaml.Resolved → Setting
  | .null => .null
  | .bool b => .flag b
  | .int n => .int n
  | .float d => .float d
  | .timestamp t => .time t.toText
  | .text => .text text
  | .bytes bytes => .text bytes

def scalar (tag text : Text) : Reading Setting :=
  match Yaml.resolve tag text with
  | .ok r => return settingOf text r
  | .error _ => failure

def isMerge : Node → Bool
  | .scalar tag text _ => text == utf8 "<<" && tag == Yaml.mergeTag
  | _ => false

def hasRepeatedKey : List (Node × Node) → Bool
  | [] => false
  | (key, _) :: rest =>
    rest.any (fun (other, _) => key.sameKind other && key.text == other.text) || hasRepeatedKey rest

def hasTextKeys (doc : Yaml.Document) (entries : List (Node × Node)) : Bool :=
  entries.all fun (key, _) => [Yaml.strTag, Yaml.mergeTag].contains (doc.follow key).tag

/-- The text of a key. Where only texts are keys, a scalar stands for how it is written, and an
empty one for none at all. -/
def keyText (doc : Yaml.Document) (textKeys : Bool) (key : Node) : Reading (Option Text) :=
  visit doc key fun key =>
    match key with
    | .scalar tag text _ => do
      match ← scalar tag text, textKeys with
      | .null, true => return none
      | .text value, _ => return some value
      | _, true => return some text
      | value, false => return some value.toText
    | _ => failure

def ownKey? (doc : Yaml.Document) (textKeys : Bool) (key : Node) : Reading (Option Text) :=
  visit doc key fun key =>
    match key with
    | .scalar tag text _ => do
      match ← scalar tag text, textKeys with
      | .text value, _ => return some value
      | _, true => return none
      | value, false => return some value.toText
    | _ => return none

/-- Adds the entries of one mapping, merge keys apart. `seen` has the keys that may not be set any
more, while a merge is going on. -/
def ownEntries (doc : Yaml.Document) (value : Node → Reading Setting) (textKeys : Bool)
    (seen : Option (List Text)) (table : Entries) :
    List (Node × Node) → Reading (Entries × Option (List Text))
  | [] => return (table, seen)
  | (key, node) :: rest =>
    if isMerge key then ownEntries doc value textKeys seen table rest
    else do
      match ← keyText doc textKeys key with
      | none => ownEntries doc value textKeys seen table rest
      | some name =>
        if seen.any (·.contains name) then ownEntries doc value textKeys seen table rest
        else
          let found ← value node
          ownEntries doc value textKeys (seen.map (name :: ·)) (table.put name found) rest

/-- Adds the entries of a mapping and of what is merged into it, which comes to an end within `fuel`
mappings inside of each other. -/
def allEntries (doc : Yaml.Document) (value : Node → Reading Setting) (textKeys : Bool) :
    Nat → Option (List Text) → Entries → List (Node × Node) →
      Reading (Entries × Option (List Text))
  | 0, _, _, _ => failure
  | fuel + 1, seen, table, entries =>
    if hasRepeatedKey entries then failure
    else do
      let (table, seen) ← ownEntries doc value textKeys seen table entries
      match entries.reverse.find? fun (key, _) => isMerge key with
      | none => return (table, seen)
      | some (_, source) =>
        let taken ← match seen with
          | some seen => pure seen
          | none => entries.filterMapM fun (key, _) => ownKey? doc textKeys key
        let one (acc : Entries × Option (List Text)) (node : Node) :
            Reading (Entries × Option (List Text)) :=
          visit doc node fun node =>
            match node with
            | .mapping _ entries _ => allEntries doc value textKeys fuel acc.2 acc.1 entries
            | _ => failure
        match source with
        | .sequence _ items _ => items.foldlM one (table, some taken)
        | other => one (table, some taken) other

def setting (doc : Yaml.Document) : Nat → Node → Reading Setting
  | 0, _ => failure
  | fuel + 1, node => visit doc node fun node =>
    match node with
    | .scalar tag text _ => scalar tag text
    | .sequence _ items _ => do
      for item in items do discard (setting doc fuel item)
      return .list
    | .mapping _ entries _ => do
      let textKeys := hasTextKeys doc entries
      return .table (← allEntries doc (setting doc fuel) textKeys doc.nesting none [] entries).1
    | .reference _ _ _ _ => failure

def table (doc : Yaml.Document) : Reading Entries :=
  match doc.root with
  | none => return []
  | some root => do
    count
    visit doc root fun root =>
      match root with
      | .mapping _ entries _ => do
        return (← allEntries doc (setting doc doc.nesting) true doc.nesting none [] entries).1
      | .scalar tag text _ => do
        match ← scalar tag text with
        | .null => return []
        | _ => failure
      | _ => failure

def table? (text : Text) : Option Entries := do
  let doc ← (Yaml.read text).toOption
  return (← (table doc).run .start).1

end SvgAssist.Config.FromYaml
