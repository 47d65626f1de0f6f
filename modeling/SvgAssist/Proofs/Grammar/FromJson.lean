import SvgAssist.Grammar.FromJson
import SvgAssist.Proofs.Grammar.Written
import SvgAssist.Proofs.Text.Chars

/-!
# Written grammars from JSON

The JSON tree of a written grammar document decodes to what the document means
(`document_toJson`).
-/

namespace SvgAssist

theorem Json.foldKey_utf8 {key : String} (h : (utf8 key).all fun b =>
      b < 0x80 && Text.ofChar (foldChar (Char.ofNat b.toNat)) == [Byte.toLower b]) :
    Json.foldKey (utf8 key) = Text.lowerAscii (utf8 key) := by
  simp only [List.all_eq_true, Bool.and_eq_true, decide_eq_true_eq, beq_iff_eq] at h
  have hchars := Text.chars_append_of_ascii [] fun b hb => (h b hb).1
  rw [List.nil_append, Text.chars_nil, List.nil_append] at hchars
  have hsame : (utf8 key).map (fun b => Text.ofChar (foldChar (Char.ofNat b.toNat))) =
      (utf8 key).map fun b => [Byte.toLower b] := List.map_congr_left fun b hb => (h b hb).2
  rw [foldKey, hchars, List.map_map, Text.ofChars, List.flatMap_map, Text.lowerAscii,
    List.map_eq_flatMap, List.flatMap_def, List.flatMap_def]
  exact congrArg List.flatten hsame

namespace Grammar.FromJson

open Written

variable {φ σ δ : Type} {layout : Layout φ σ}

/-- The members of a record are decoded one by one. `view` is what counts of a state. -/
theorem object_toJson (member : δ → Text → Json → Except Fault δ) (view : δ → σ)
    (h : ∀ state field, ∃ next,
      member state (Json.foldKey (layout.key field)) (layout.value field) = .ok next ∧
        view next = layout.set (view state) field)
    (fields : Fields layout) (initial : δ) :
    ∃ final, object member initial fields.toJson = .ok final ∧
      view final = fields.fill (view initial) := by
  simp only [object, Fields.toJson, Fields.fill]
  induction fields.all generalizing initial with
  | nil => exact ⟨initial, rfl, rfl⟩
  | cons field all ih =>
    obtain ⟨next, hnext, hview⟩ := h initial field
    obtain ⟨final, hfinal, hfill⟩ := ih next
    refine ⟨final, ?_, ?_⟩
    · rw [List.map_cons, List.foldlM_cons, hnext]
      exact hfinal
    · rw [hfill, hview, List.foldl_cons]

-- Where the state of the decoder is the record itself, reading the fields back fills it.
theorem object_toJson_id (member : σ → Text → Json → Except Fault σ)
    (h : ∀ state field, member state (Json.foldKey (layout.key field)) (layout.value field) =
      .ok (layout.set state field))
    (fields : Fields layout) (initial : σ) :
    object member initial fields.toJson = .ok (fields.fill initial) := by
  obtain ⟨final, hfinal, rfl⟩ :=
    object_toJson member id (fun state field => ⟨_, h state field, rfl⟩) fields initial
  exact hfinal

-- Decoding the items one by one undoes writing them one by one.
theorem mapM_map_ok {α β γ : Type} {decode : β → Except Fault γ} {write : α → β} {meaning : α → γ}
    (h : ∀ a, decode (write a) = .ok (meaning a)) (all : List α) :
    (all.map write).mapM decode = .ok (all.map meaning) := by
  have hpure : decode ∘ write = fun a => pure (meaning a) := funext h
  rw [List.mapM_map, hpure, List.mapM_pure]
  rfl

theorem list_map {α β : Type} {entry : Json → Except Fault β} {write : α → Json} {meaning : α → β}
    (h : ∀ a, entry (write a) = .ok (meaning a)) (all : List α) :
    list entry (.array (all.map write)) = .ok (some (all.map meaning)) := by
  rw [list, mapM_map_ok h]
  rfl

theorem enumValue_toJson (v : Value) : enumValue v.toJson = .ok v.meaning := by
  cases v with
  | bare name => rfl
  | full fields =>
    refine object_toJson_id enumMember (fun state field => ?_) fields _
    have hkey : Json.foldKey (valueLayout.key field) = Text.lowerAscii (valueLayout.key field) := by
      cases field <;> exact Json.foldKey_utf8 (by decide)
    rw [hkey]
    cases field <;> rfl

theorem attributeBody_toJson (fields : Fields attributeLayout) :
    attributeBody fields.toJson = .ok (fields.fill .empty) := by
  refine object_toJson_id attributeMember (fun state field => ?_) fields _
  have hkey : Json.foldKey (attributeLayout.key field) =
      Text.lowerAscii (attributeLayout.key field) := by
    cases field <;> exact Json.foldKey_utf8 (by decide)
  rw [hkey]
  cases field with
  | values all =>
    exact congrArg (· >>= fun values => pure { state with values }) (list_map enumValue_toJson all)
  | _ => rfl

theorem attributeEntry_toJson (entry : Entry) :
    attributeEntry entry.toJson = .ok entry.meaning := by
  cases entry with
  | bare name => rfl
  | inline fields =>
    exact congrArg (· >>= fun a => pure (AttributeEntry.own a)) (attributeBody_toJson fields)

/-- Slots of an earlier list do not show through texts. -/
theorem overlay_map_string (slots names : List Text) :
    overlay slots (names.map Json.string) = .ok names := by
  induction names generalizing slots with
  | nil => rfl
  | cons name names ih =>
    rw [List.map_cons, overlay, ih]
    rfl

-- The names that are read are the children, whatever the slots held before.
theorem children_map_string (d : Draft) (names : List Text) :
    ∃ next, children d (.array (names.map Json.string)) = .ok next ∧
      next.element = { d.element with children := some names } := by
  cases names with
  | nil => exact ⟨_, rfl, rfl⟩
  | cons name names =>
    refine ⟨⟨_, name :: names ++ d.slots.drop (name :: names).length⟩, ?_, rfl⟩
    change (do
      let names ← overlay d.slots ((name :: names).map Json.string)
      pure _) = _
    rw [overlay_map_string]
    rfl

theorem elementBody_toJson (fields : Fields elementLayout) :
    elementBody fields.toJson = .ok (fields.fill .empty) := by
  have hmember : ∀ state field, ∃ next,
      elementMember state (Json.foldKey (elementLayout.key field)) (elementLayout.value field) =
        .ok next ∧ next.element = elementLayout.set state.element field := by
    intro state field
    have hkey : Json.foldKey (elementLayout.key field) =
        Text.lowerAscii (elementLayout.key field) := by
      cases field <;> exact Json.foldKey_utf8 (by decide)
    rw [hkey]
    cases field with
    | children names => exact children_map_string state names
    | attributes entries =>
      refine ⟨{ state with element :=
        { state.element with attributes := some (entries.map Entry.meaning) } }, ?_, rfl⟩
      exact congrArg (· >>= fun attributes =>
        pure { state with element := { state.element with attributes } })
        (list_map attributeEntry_toJson entries)
    | _ => exact ⟨_, rfl, rfl⟩
  obtain ⟨final, hfinal, hfill⟩ :=
    object_toJson elementMember Draft.element hmember fields ⟨.empty, []⟩
  rw [elementBody, hfinal]
  exact congrArg Except.ok hfill

theorem elements_toJson (definitions : List (Text × Fields elementLayout)) :
    elements (documentLayout.value (.elements definitions)) =
      .ok (definitions.map Written.element) := by
  refine mapM_map_ok (fun definition => ?_) definitions
  simp only [element, elementBody_toJson]
  rfl

-- By induction on the definitions, behind any earlier ones.
theorem globals_toJson (definitions : Fields globalLayout)
    (known : List (Text × Option Attribute)) :
    globals known definitions.toJson = .ok (definitions.fill known) := by
  simp only [Fields.toJson, Fields.fill, globals]
  induction definitions.all generalizing known with
  | nil => rfl
  | cons definition all ih =>
    rw [List.map_cons, List.foldlM_cons, List.foldl_cons, ← ih]
    exact congrArg (fun r => (r >>= fun a => pure (Document.put definition.1 (some a) known)) >>= _)
      (attributeBody_toJson definition.2)

/-- The JSON tree of a document says what the document means. -/
theorem document_toJson (d : Written.Document) : document d.toJson = .ok d.meaning := by
  refine object_toJson_id documentMember (fun state field => ?_) d _
  have hkey : Json.foldKey (documentLayout.key field) =
      Text.lowerAscii (documentLayout.key field) := by
    cases field <;> exact Json.foldKey_utf8 (by decide)
  rw [hkey]
  cases field with
  | elements definitions =>
    exact congrArg (· >>= fun own => pure { state with elements := state.elements ++ own })
      (elements_toJson definitions)
  | attributes definitions =>
    exact congrArg (· >>= fun attributes => pure { state with attributes })
      (globals_toJson definitions state.attributes)

end Grammar.FromJson

end SvgAssist
