import Mathlib
import SvgAssist.Proofs.Grammar.Catalog
import SvgAssist.Proofs.Grammar.Formats
import SvgAssist.Proofs.Grammar.Repair

/-!
# Elements there and back

An element of a loaded catalog that is written as JSON, and loaded again on its own, is the same
element (`load_alone`). Two things are lost: bytes that are not UTF-8 become replacement characters,
and a list without entries is left out, so that it comes back as one that was not given.
-/

namespace SvgAssist.Grammar

def given {α : Type} : Option (List α) → Option (List α)
  | some [] => none
  | items => items

def Attribute.trimmed (a : Attribute) : Attribute := { a with values := given a.values }

def AttributeEntry.trimmed : AttributeEntry → AttributeEntry
  | ref name => ref name
  | own definition => own definition.trimmed

def Element.trimmed (e : Element) : Element :=
  { e with attributes := given (e.attributes.map (·.map AttributeEntry.trimmed)) }

/-! ## Fields that are given -/

section Written

open Written

def Written.ValueField.isGiven : ValueField → Bool
  | .name _ => true
  | .documentation text => !text.isEmpty

def Written.AttributeField.isGiven : AttributeField → Bool
  | .name _ => true
  | .documentation text | .type text => !text.isEmpty
  | .deprecated flag => flag
  | .values all => !all.isEmpty

def Written.ElementField.isGiven : ElementField → Bool
  | .documentation text => !text.isEmpty
  | .deprecated flag | .simple flag | .inline flag => flag
  | .children names => !names.isEmpty
  | .attributes entries => !entries.isEmpty

theorem textMember_eq (key : String) (text : Text) :
    textMember key text = if !text.isEmpty then [(utf8 key, .string text)] else [] := by
  cases text <;> rfl

theorem flagMember_eq (key : String) (flag : Bool) :
    flagMember key flag = if flag then [(utf8 key, .bool flag)] else [] := by
  cases flag <;> rfl

theorem listMember_eq {α : Type} (key : String) (toJson : α → Json) (items : Option (List α)) :
    listMember key toJson items =
      if !(items.getD []).isEmpty then [(utf8 key, .array ((items.getD []).map toJson))]
      else [] := by
  rcases items with _ | _ | _ <;> rfl

def Fields.ofGiven {φ σ : Type} {layout : Layout φ σ} (isGiven : φ → Bool) (all : List φ)
    (distinct : (all.map layout.key).Nodup) : Fields layout where
  all := all.filter isGiven
  distinct := distinct.sublist (List.filter_sublist.map layout.key)

-- Just the fields that are given become members, in the order of the writer.
theorem toJson_ofGiven {φ σ : Type} {layout : Layout φ σ} {isGiven : φ → Bool} {all : List φ}
    (distinct : (all.map layout.key).Nodup) :
    (Fields.ofGiven isGiven all distinct).toJson = .object (all.flatMap fun field =>
      if isGiven field then [(layout.key field, layout.value field)] else []) := by
  simp only [Fields.toJson, Fields.ofGiven]
  congr 1
  clear distinct
  induction all with
  | nil => rfl
  | cons field all ih =>
    rw [List.filter_cons, List.flatMap_cons, ← ih]
    split <;> rfl

/-! ## The fields of an element -/

def EnumValue.written (v : EnumValue) : Value :=
  .full (.ofGiven ValueField.isGiven [.name v.name, .documentation v.documentation]
    (by change [utf8 "name", utf8 "documentation"].Nodup; decide))

theorem EnumValue.toJson_written (v : EnumValue) : v.written.toJson = v.toJson := by
  simp only [written, Value.toJson, toJson_ofGiven, EnumValue.toJson, textMember_eq,
    List.flatMap_cons, List.flatMap_nil, List.append_nil]
  rfl

def Attribute.written (a : Attribute) : Fields attributeLayout :=
  .ofGiven AttributeField.isGiven [.name a.name, .documentation a.documentation,
      .deprecated a.deprecated, .type a.type, .values ((a.values.getD []).map EnumValue.written)]
    (by
      change [utf8 "name", utf8 "documentation", utf8 "deprecated", utf8 "type",
        utf8 "enum"].Nodup
      decide)

theorem Attribute.toJson_written (a : Attribute) : a.written.toJson = a.toJson := by
  have hvalues : (a.values.getD []).map EnumValue.toJson =
      ((a.values.getD []).map EnumValue.written).map Value.toJson := by
    rw [List.map_map]
    exact List.map_congr_left fun v _ => v.toJson_written.symm
  have hempty : (a.values.getD []).isEmpty = ((a.values.getD []).map EnumValue.written).isEmpty :=
    List.isEmpty_map.symm
  simp only [written, toJson_ofGiven, Attribute.toJson, textMember_eq, flagMember_eq, listMember_eq,
    List.flatMap_cons, List.flatMap_nil, List.append_nil, List.cons_append, List.append_assoc,
    hvalues, hempty]
  rfl

def AttributeEntry.written : AttributeEntry → Entry
  | ref name => .bare name
  | own definition => .inline definition.written

theorem AttributeEntry.toJson_written (entry : AttributeEntry) :
    entry.written.toJson = entry.toJson := by
  cases entry with
  | ref name => rfl
  | own definition => exact definition.toJson_written

def Element.written (e : Element) : Fields elementLayout :=
  .ofGiven ElementField.isGiven [.documentation e.documentation, .deprecated e.deprecated,
      .simple e.simple, .inline e.inline, .children (e.children.getD []),
      .attributes ((e.attributes.getD []).map AttributeEntry.written)]
    (by
      change [utf8 "documentation", utf8 "deprecated", utf8 "simple", utf8 "inline",
        utf8 "subElements", utf8 "attributes"].Nodup
      decide)

-- The written document of an element is what the writer puts.
theorem Element.toJson_written (e : Element) : e.written.toJson = e.toJson := by
  have hentries : (e.attributes.getD []).map AttributeEntry.toJson =
      ((e.attributes.getD []).map AttributeEntry.written).map Entry.toJson := by
    rw [List.map_map]
    exact List.map_congr_left fun entry _ => entry.toJson_written.symm
  have hempty : (e.attributes.getD []).isEmpty =
      ((e.attributes.getD []).map AttributeEntry.written).isEmpty := List.isEmpty_map.symm
  simp only [written, toJson_ofGiven, Element.toJson, textMember_eq, flagMember_eq, listMember_eq,
    List.flatMap_cons, List.flatMap_nil, List.append_nil, List.append_assoc, hentries, hempty]
  rfl

/-! ## What is written -/

theorem EnumValue.meaning_written (v : EnumValue) : v.written.meaning = v := by
  obtain ⟨name, documentation⟩ := v
  cases documentation <;> rfl

theorem Attribute.fill_written (a : Attribute) : a.written.fill .empty = a.trimmed := by
  have hvalues (all : List EnumValue) : (all.map EnumValue.written).map Value.meaning = all := by
    rw [List.map_map]
    exact (List.map_congr_left fun v _ => v.meaning_written).trans (List.map_id all)
  calc a.written.fill .empty
      = { a with values :=
          (given a.values).map fun all => (all.map EnumValue.written).map Value.meaning } := by
        -- A field that is left out is empty, as it is in an attribute to begin with.
        obtain ⟨name, documentation, deprecated, type, values⟩ := a
        rcases values with _ | _ | _ <;> cases documentation <;> cases deprecated <;> cases type <;>
          rfl
    _ = a.trimmed := by
        simp only [hvalues, Option.map_id']
        rfl

theorem AttributeEntry.meaning_written (entry : AttributeEntry) :
    entry.written.meaning = entry.trimmed := by
  cases entry with
  | ref name => rfl
  | own definition => exact congrArg AttributeEntry.own definition.fill_written

-- Read back under its name, an element has only lost its empty lists.
theorem Element.fill_written {e : Element} (hchildren : e.children ≠ some []) :
    { e.written.fill .empty with name := e.name } = e.trimmed := by
  have hentries (all : List AttributeEntry) :
      (all.map AttributeEntry.written).map Entry.meaning = all.map AttributeEntry.trimmed := by
    rw [List.map_map]
    exact List.map_congr_left fun entry _ => entry.meaning_written
  calc { e.written.fill .empty with name := e.name }
      = { e with attributes := (given e.attributes).map fun all =>
          (all.map AttributeEntry.written).map Entry.meaning } := by
        obtain ⟨name, documentation, deprecated, simple, inline, children, attributes⟩ := e
        rcases children with _ | _ | _
        · rcases attributes with _ | _ | _ <;> cases documentation <;> cases deprecated <;>
            cases simple <;> cases inline <;> rfl
        · exact absurd rfl hchildren
        · rcases attributes with _ | _ | _ <;> cases documentation <;> cases deprecated <;>
            cases simple <;> cases inline <;> rfl
    _ = e.trimmed := by
        simp only [hentries]
        obtain ⟨name, documentation, deprecated, simple, inline, children, attributes⟩ := e
        rcases attributes with _ | _ | _ <;> rfl

/-- An element that is alone in a document says what the element says. -/
theorem Element.document_alone {e : Element} (hchildren : e.children ≠ some []) :
    FromJson.document e.alone = .ok ⟨[e.trimmed], []⟩ := by
  let d : Written.Document := ⟨[.elements [(e.name, e.written)]], List.nodup_singleton _⟩
  have hjson : d.toJson = e.alone := by
    change Json.object [(_, Json.object [(e.name, e.written.toJson)])] = _
    rw [e.toJson_written]
    rfl
  have hmeaning : d.meaning = ⟨[e.trimmed], []⟩ := by
    rw [← Element.fill_written hchildren]
    rfl
  rw [← hjson, FromJson.document_toJson, hmeaning]

end Written

/-! ## Loading -/

-- A catalog that was loaded comes from a document.
theorem toCatalog_of_load {format : Format} {text : Text} {catalog : Catalog}
    (h : load format text = .ok catalog) : ∃ d : Document, d.toCatalog = .ok catalog := by
  unfold load at h
  extract_lets decoded at h
  rcases decoded with _ | _ | d
  · cases h
  · cases h
  · refine ⟨d, ?_⟩
    simp only at h
    cases hd : d.toCatalog with
    | error fault =>
      rw [hd] at h
      cases h
    | ok found =>
      rw [hd] at h
      cases h
      rfl

-- A document with a nameless element has no catalog.
theorem name_ne_nil_of_toCatalog {d : Document} {catalog : Catalog} {e : Element}
    (h : d.toCatalog = .ok catalog) (he : e ∈ catalog.elements) : e.name ≠ [] := by
  unfold Document.toCatalog at h
  split_ifs at h with hnone hempty
  cases h
  intro hname
  obtain ⟨found, hfound, hsame⟩ :=
    List.mem_map.mp (Catalog.mem_names_ofDefinitions (List.mem_map_of_mem he))
  exact hempty (List.any_eq_true.mpr ⟨found, hfound, by rw [hsame, hname]; rfl⟩)

theorem load_json_alone {e : Element} (hname : e.name ≠ []) (hchildren : e.children ≠ some []) :
    load .json (Json.compact e.alone) = .ok ⟨[e.repaired.trimmed], []⟩ := by
  have hname : (e.repaired.trimmed.name == []) = false :=
    beq_false_of_ne (mt (Text.repaired_eq_nil_iff e.name).mp hname)
  have hchildren : e.repaired.children ≠ some [] := by
    intro h
    obtain ⟨names, hnames, hempty⟩ := Option.map_eq_some_iff.mp h
    rw [List.map_eq_nil_iff.mp hempty] at hnames
    exact hchildren hnames
  have hcatalog : (⟨[e.repaired.trimmed], []⟩ : Document).toCatalog =
      .ok ⟨[e.repaired.trimmed], []⟩ := by
    rw [Document.toCatalog, if_neg (List.cons_ne_nil _ _), List.any_cons, hname]
    rfl
  rw [load_json e.read_alone (Element.document_alone hchildren), hcatalog]
  rfl

/-- An element of a loaded catalog is written, and loaded again as the only one, without a change
but for bytes that are not UTF-8 and for empty lists. -/
theorem load_alone {format : Format} {text : Text} {catalog : Catalog} {e : Element}
    (hload : load format text = .ok catalog) (he : e ∈ catalog.elements)
    (hchildren : e.children ≠ some []) :
    load .json (Json.compact e.alone) = .ok ⟨[e.repaired.trimmed], []⟩ ∧
      ((∀ t ∈ e.texts, t.isValid = true) → e.repaired = e) := by
  obtain ⟨d, hd⟩ := toCatalog_of_load hload
  exact ⟨load_json_alone (name_ne_nil_of_toCatalog hd he) hchildren, Element.repaired_of_isValid⟩

def Element.inlineExample : Element := { Element.empty with
  name := utf8 "a"
  children := some [utf8 "b"]
  attributes := some [.ref (utf8 "x"), .own { Attribute.empty with
    name := utf8 "y"
    values := some [⟨utf8 "u", []⟩] }] }

-- An element with a definition inside of it is read back as it is.
set_option maxRecDepth 4000 in
theorem load_alone_inline :
    load .json (Json.compact Element.inlineExample.alone) =
      .ok ⟨[Element.inlineExample], []⟩ := by
  have hload : load .json (utf8 "\x7b\"elements\": \x7b\"a\": \x7b\"subElements\": [\"b\"], " ++
      utf8 "\"attributes\": [\"x\", \x7b\"name\": \"y\", \"enum\": [\"u\"]\x7d]\x7d\x7d\x7d") =
      .ok ⟨[Element.inlineExample], []⟩ := by cbv
  obtain ⟨halone, hvalid⟩ := load_alone hload (List.mem_singleton_self _) (by decide)
  have hascii : Element.inlineExample.texts.all fun t => t.all (· < 0x80) := by decide
  rw [hvalid fun t ht => Text.isValid_of_ascii (List.all_eq_true.mp hascii t ht)] at halone
  exact halone

def Element.binaryExample : Element :=
  { Element.empty with name := utf8 "a", documentation := [0x80] }

-- Bytes that are not UTF-8 can come from YAML, but JSON has no way to write them.
set_option maxRecDepth 4000 in
theorem load_alone_binary :
    load .yaml (utf8 "elements:\n  a:\n    documentation: !!binary gA==\n") =
        .ok ⟨[Element.binaryExample], []⟩ ∧
      load .json (Json.compact Element.binaryExample.alone) ≠
        .ok ⟨[Element.binaryExample], []⟩ := by
  refine ⟨by cbv, fun h => ?_⟩
  have hrepaired : Text.repaired [0x80] = [0xef, 0xbf, 0xbd] := by
    rw [Text.repaired_cons, List.drop_nil, Text.repaired_nil]
    rfl
  rw [load_json_alone (by decide) (by decide)] at h
  have hdocumentation : [Text.repaired [0x80]] = [[0x80]] :=
    congrArg (fun c => c.elements.map (·.documentation)) (Except.ok.inj h)
  rw [hrepaired] at hdocumentation
  exact absurd hdocumentation (by decide)

end SvgAssist.Grammar
