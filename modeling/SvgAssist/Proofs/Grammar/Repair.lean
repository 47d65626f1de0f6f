import SvgAssist.Grammar.ToJson
import SvgAssist.Proofs.Json.Roundtrip

/-!
# Repaired elements

The tree that an element is written as is read back with its texts repaired, and that is the tree of
the repaired element (`Element.read_alone`). An element whose texts are UTF-8 needs no repair
(`Element.repaired_of_isValid`).
-/

namespace SvgAssist.Grammar

namespace EnumValue

def repaired (v : EnumValue) : EnumValue := ⟨v.name.repaired, v.documentation.repaired⟩

def texts (v : EnumValue) : List Text := [v.name, v.documentation]

end EnumValue

namespace Attribute

def repaired (a : Attribute) : Attribute where
  name := a.name.repaired
  documentation := a.documentation.repaired
  deprecated := a.deprecated
  type := a.type.repaired
  values := a.values.map (·.map EnumValue.repaired)

def texts (a : Attribute) : List Text :=
  a.name :: a.documentation :: a.type :: (a.values.getD []).flatMap EnumValue.texts

end Attribute

namespace AttributeEntry

def repaired : AttributeEntry → AttributeEntry
  | ref name => ref name.repaired
  | own definition => own definition.repaired

def texts : AttributeEntry → List Text
  | ref name => [name]
  | own definition => definition.texts

end AttributeEntry

namespace Element

def repaired (e : Element) : Element where
  name := e.name.repaired
  documentation := e.documentation.repaired
  deprecated := e.deprecated
  simple := e.simple
  inline := e.inline
  children := e.children.map (·.map Text.repaired)
  attributes := e.attributes.map (·.map AttributeEntry.repaired)

def texts (e : Element) : List Text :=
  e.name :: e.documentation :: e.children.getD [] ++
    (e.attributes.getD []).flatMap AttributeEntry.texts

def alone (e : Element) : Json :=
  .object [(utf8 "elements", .object [(e.name, e.toJson)])]

end Element

/-! ## Trees -/

-- ASCII has nothing to repair.
theorem repaired_utf8 {s : String} (h : (utf8 s).all (· < 0x80)) : (utf8 s).repaired = utf8 s :=
  Text.repaired_of_isValid (Text.isValid_of_ascii h)

section Members

variable {key : String} (hkey : (utf8 key).all (· < 0x80))
include hkey

theorem repaired_textMember (text : Text) :
    Json.repairedMembers (textMember key text) = textMember key text.repaired := by
  have hempty := Text.repaired_eq_nil_iff text
  unfold textMember
  by_cases h : text = []
  · rw [if_pos h, if_pos (hempty.mpr h)]
    rfl
  · rw [if_neg h, if_neg (mt hempty.mp h), Json.repairedMembers, repaired_utf8 hkey]
    rfl

theorem repaired_flagMember (flag : Bool) :
    Json.repairedMembers (flagMember key flag) = flagMember key flag := by
  cases flag with
  | false => rfl
  | true => exact congrArg (fun k => [(k, Json.bool true)]) (repaired_utf8 hkey)

-- Repairing a list repairs its items, and an empty one stays left out.
theorem repaired_listMember {α : Type} {toJson : α → Json} (repair : α → α)
    (h : ∀ a, (toJson a).repaired = toJson (repair a)) (items : Option (List α)) :
    Json.repairedMembers (listMember key toJson items) =
      listMember key toJson (items.map (·.map repair)) := by
  have hmap (items : List α) :
      Json.repairedItems (items.map toJson) = (items.map repair).map toJson := by
    rw [Json.repairedItems_eq_map, List.map_map, List.map_map]
    exact List.map_congr_left fun a _ => h a
  rcases items with _ | _ | ⟨a, items⟩
  · rfl
  · rfl
  · simp only [listMember, Json.repairedMembers, Json.repaired, hmap, repaired_utf8 hkey]
    rfl

end Members

-- Repairing a record goes member by member.
theorem repairedMembers_append (a b : List (Text × Json)) : Json.repairedMembers (a ++ b) =
    Json.repairedMembers a ++ Json.repairedMembers b := by
  simp only [Json.repairedMembers_eq_map, List.map_append]

theorem EnumValue.repaired_toJson (v : EnumValue) : v.toJson.repaired = v.repaired.toJson := by
  have hname : (utf8 "name").repaired = utf8 "name" := repaired_utf8 (by decide)
  simp only [EnumValue.toJson, Json.repaired, Json.repairedMembers, hname,
    repaired_textMember (by decide : (utf8 "documentation").all (· < 0x80))]
  rfl

theorem Attribute.repaired_toJson (a : Attribute) : a.toJson.repaired = a.repaired.toJson := by
  have hname : (utf8 "name").repaired = utf8 "name" := repaired_utf8 (by decide)
  simp only [Attribute.toJson, Json.repaired, Json.repairedMembers, repairedMembers_append, hname,
    List.cons_append,
    repaired_textMember (by decide : (utf8 "documentation").all (· < 0x80)),
    repaired_textMember (by decide : (utf8 "type").all (· < 0x80)),
    repaired_flagMember (by decide : (utf8 "deprecated").all (· < 0x80)),
    repaired_listMember (by decide : (utf8 "enum").all (· < 0x80)) EnumValue.repaired
      EnumValue.repaired_toJson]
  rfl

theorem AttributeEntry.repaired_toJson (entry : AttributeEntry) :
    entry.toJson.repaired = entry.repaired.toJson := by
  cases entry with
  | ref name => rfl
  | own definition => exact definition.repaired_toJson

theorem Element.repaired_toJson (e : Element) : e.toJson.repaired = e.repaired.toJson := by
  have hchildren : Json.repairedMembers (listMember "subElements" Json.string e.children) =
      listMember "subElements" Json.string (e.children.map (·.map Text.repaired)) :=
    repaired_listMember (by decide : (utf8 "subElements").all (· < 0x80)) Text.repaired
      (fun _ => rfl) e.children
  simp only [Element.toJson, Json.repaired, repairedMembers_append,
    repaired_textMember (by decide : (utf8 "documentation").all (· < 0x80)),
    repaired_flagMember (by decide : (utf8 "deprecated").all (· < 0x80)),
    repaired_flagMember (by decide : (utf8 "simple").all (· < 0x80)),
    repaired_flagMember (by decide : (utf8 "inline").all (· < 0x80)),
    hchildren, repaired_listMember (by decide : (utf8 "attributes").all (· < 0x80))
      AttributeEntry.repaired AttributeEntry.repaired_toJson]
  rfl

theorem Element.repaired_alone (e : Element) : e.alone.repaired = e.repaired.alone := by
  have hkey : (utf8 "elements").repaired = utf8 "elements" := repaired_utf8 (by decide)
  simp only [alone, Json.repaired, Json.repairedMembers, hkey, e.repaired_toJson]
  rfl

/-! ## Depth -/

open Json (Shallow)

variable {depth : Nat} {key : String}

theorem shallow_textMember (text : Text) :
    ∀ member ∈ textMember key text, Shallow depth member.2 := by
  unfold textMember
  split
  · exact List.forall_mem_nil _
  · exact List.forall_mem_singleton.mpr (.string depth text)

theorem shallow_flagMember (flag : Bool) :
    ∀ member ∈ flagMember key flag, Shallow depth member.2 := by
  cases flag with
  | false => exact List.forall_mem_nil _
  | true => exact List.forall_mem_singleton.mpr (.bool depth true)

-- One more level than its items.
theorem shallow_listMember {α : Type} {toJson : α → Json} (h : ∀ a, Shallow depth (toJson a))
    (items : Option (List α)) :
    ∀ member ∈ listMember key toJson items, Shallow (depth + 1) member.2 := by
  rcases items with _ | _ | ⟨a, items⟩
  · exact List.forall_mem_nil _
  · exact List.forall_mem_nil _
  · exact List.forall_mem_singleton.mpr (.array (List.forall_mem_map.mpr fun a _ => h a))

theorem EnumValue.shallow_toJson (v : EnumValue) : Shallow 1 v.toJson :=
  .object (List.forall_mem_cons.mpr ⟨.string 0 v.name, shallow_textMember v.documentation⟩)

theorem Attribute.shallow_toJson (a : Attribute) : Shallow 3 a.toJson := by
  refine .object ?_
  simp only [List.cons_append, List.forall_mem_cons, List.forall_mem_append]
  exact ⟨.string 2 a.name, ⟨⟨shallow_textMember _, shallow_flagMember _⟩, shallow_textMember _⟩,
    shallow_listMember EnumValue.shallow_toJson a.values⟩

theorem AttributeEntry.shallow_toJson (entry : AttributeEntry) : Shallow 3 entry.toJson := by
  cases entry with
  | ref name => exact .string 3 name
  | own definition => exact definition.shallow_toJson

theorem Element.shallow_toJson (e : Element) : Shallow 5 e.toJson := by
  refine .object ?_
  simp only [List.forall_mem_append]
  exact ⟨⟨⟨⟨⟨shallow_textMember _, shallow_flagMember _⟩, shallow_flagMember _⟩,
    shallow_flagMember _⟩, shallow_listMember (.string 3) e.children⟩,
    shallow_listMember AttributeEntry.shallow_toJson e.attributes⟩

-- The document adds two levels: its elements, and the one with the name.
theorem Element.shallow_alone (e : Element) : Shallow 7 e.alone :=
  .object (List.forall_mem_singleton.mpr
    (.object (List.forall_mem_singleton.mpr e.shallow_toJson)))

/-- An element that is written is read back as the repaired element. -/
theorem Element.read_alone (e : Element) :
    Json.read (Json.compact e.alone) = .ok e.repaired.alone := by
  rw [Json.read_compact e.shallow_alone (by decide), e.repaired_alone]

/-! ## Texts that are UTF-8 -/

-- Nothing changes where nothing is to be repaired.
theorem map_repaired_of_isValid {α : Type} (repair : α → α) (texts : α → List Text)
    (h : ∀ a, (∀ t ∈ texts a, t.isValid = true) → repair a = a) {items : Option (List α)}
    (hvalid : ∀ t ∈ (items.getD []).flatMap texts, t.isValid = true) :
    items.map (·.map repair) = items := by
  cases items with
  | none => rfl
  | some items =>
    have hsame : items.map repair = items.map id := List.map_congr_left fun a ha =>
      h a fun t ht => hvalid t (List.mem_flatMap.mpr ⟨a, ha, ht⟩)
    rw [Option.map_some, hsame, List.map_id]

theorem EnumValue.repaired_of_isValid {v : EnumValue} (h : ∀ t ∈ v.texts, t.isValid = true) :
    v.repaired = v := by
  simp only [texts, List.forall_mem_cons] at h
  obtain ⟨hname, hdocumentation, -⟩ := h
  rw [repaired, Text.repaired_of_isValid hname, Text.repaired_of_isValid hdocumentation]

theorem Attribute.repaired_of_isValid {a : Attribute} (h : ∀ t ∈ a.texts, t.isValid = true) :
    a.repaired = a := by
  simp only [texts, List.forall_mem_cons] at h
  obtain ⟨hname, hdocumentation, htype, hvalues⟩ := h
  rw [repaired, Text.repaired_of_isValid hname, Text.repaired_of_isValid hdocumentation,
    Text.repaired_of_isValid htype,
    map_repaired_of_isValid _ _ (fun _ => EnumValue.repaired_of_isValid) hvalues]

theorem AttributeEntry.repaired_of_isValid {entry : AttributeEntry}
    (h : ∀ t ∈ entry.texts, t.isValid = true) : entry.repaired = entry := by
  cases entry with
  | ref name => exact congrArg ref (Text.repaired_of_isValid (h name (List.mem_singleton_self _)))
  | own definition => exact congrArg own (definition.repaired_of_isValid h)

theorem Element.repaired_of_isValid {e : Element} (h : ∀ t ∈ e.texts, t.isValid = true) :
    e.repaired = e := by
  simp only [texts, List.cons_append, List.forall_mem_cons, List.forall_mem_append] at h
  obtain ⟨hname, hdocumentation, hchildren, hattributes⟩ := h
  have hchildren : e.children.map (·.map Text.repaired) = e.children := by
    refine map_repaired_of_isValid Text.repaired (fun t => [t]) (fun t ht => ?_) ?_
    · exact Text.repaired_of_isValid (ht t (List.mem_singleton_self t))
    · rwa [List.flatMap_singleton']
  rw [repaired, Text.repaired_of_isValid hname, Text.repaired_of_isValid hdocumentation, hchildren,
    map_repaired_of_isValid _ _ (fun _ => AttributeEntry.repaired_of_isValid) hattributes]

end SvgAssist.Grammar
