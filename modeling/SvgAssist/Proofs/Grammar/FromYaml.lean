import SvgAssist.Grammar.FromYaml
import SvgAssist.Proofs.Grammar.Written

/-!
# Written grammars from YAML

A YAML tree that shows a written grammar document decodes to what the document means
(`document_of_shows`). Such a tree has no aliases, so that no count of nodes is excessive, and
nothing in it is a misfit.
-/

namespace SvgAssist.Grammar.FromYaml

open Written
open Yaml (Node Shows ShowsAll ShowsMembers strTag boolTag seqTag mapTag)

/-! ## Decoders -/

structure Progress.Clean (p : Progress) : Prop where
  misfits : p.misfits = []
  aliased : p.usage.aliased = 0
  aliases : p.usage.aliases = []

theorem Progress.Clean.start : Progress.start.Clean := ⟨rfl, rfl, rfl⟩

/-- A decoder has a value, and nothing is amiss. -/
def Decoder.Gives {α : Type} (decoder : Decoder α) (value : α) : Prop :=
  ∀ p : Progress, p.Clean → ∃ next : Progress, next.Clean ∧ decoder.run p = .ok (value, next)

namespace Decoder.Gives

variable {α β : Type}

-- A decoder that only returns a value notes nothing.
theorem pure (value : α) : Decoder.Gives (Pure.pure value) value :=
  fun p hp => ⟨p, hp, rfl⟩

-- Two decoders after each other: both leave nothing amiss.
theorem bind {decoder : Decoder α} {value : α} {rest : α → Decoder β} {result : β}
    (h : decoder.Gives value) (hrest : (rest value).Gives result) :
    Decoder.Gives (decoder >>= rest) result := by
  intro p hp
  obtain ⟨middle, hmiddle, hrun⟩ := h p hp
  obtain ⟨final, hfinal, hresult⟩ := hrest middle hmiddle
  exact ⟨final, hfinal, by rw [StateT.run_bind, hrun]; exact hresult⟩

theorem lift {attempt : Except Fault α} {value : α} (h : attempt = .ok value) :
    Decoder.Gives (attempt : Except Fault α) value := by
  subst h
  exact .pure value

-- Counting on its own leaves the count outside as it was.
theorem apart {decoder : Decoder α} {value : α} (h : decoder.Gives value) :
    decoder.apart.Gives value := by
  intro p hp
  obtain ⟨inner, hinner, hrun⟩ := h .start .start
  refine ⟨{ p with misfits := inner.misfits ++ p.misfits },
    ⟨by simp only [hinner.misfits, hp.misfits, List.append_nil], hp.aliased, hp.aliases⟩, ?_⟩
  simp only [Decoder.apart, StateT.run_bind, StateT.run_get, pure_bind, hrun]
  rfl

theorem finish {decoder : Decoder α} {value : α} (h : decoder.Gives value) :
    decoder.finish = .ok value := by
  obtain ⟨final, hfinal, hrun⟩ := h .start .start
  simp only [Decoder.finish, hrun, hfinal.misfits, if_true]

end Decoder.Gives

-- Outside of an alias no number of nodes is too large.
theorem count_gives : count.Gives () := by
  intro p hp
  have hfew : ({ p.usage with nodes := p.usage.nodes + 1 } : Yaml.Usage).isExcessive = false := by
    simp [Yaml.Usage.isExcessive, hp.aliased]
  have hcount : p.usage.count? = some { p.usage with nodes := p.usage.nodes + 1 } := by
    simp only [Yaml.Usage.count?, hp.aliases, if_true]
    rw [if_neg]
    simpa [hp.aliases] using hfew
  refine ⟨{ p with usage := { p.usage with nodes := p.usage.nodes + 1 } },
    ⟨hp.misfits, hp.aliased, hp.aliases⟩, ?_⟩
  simp only [count, StateT.run_bind, StateT.run_get, pure_bind, hcount]
  rfl

variable {α β : Type} {doc : Yaml.Document} {node : Node}

-- What shows a value is no alias, so it is entered as it stands.
theorem visit_gives (doc : Yaml.Document) {v : Json} {decode : Node → Decoder α} {value : α}
    (hshows : Shows node v) (h : (decode node).Gives value) :
    (visit doc node decode).Gives value := by
  cases hshows <;> exact count_gives.bind h

theorem scalarValue_gives {tag text : Text} {r : Yaml.Resolved}
    (h : Yaml.resolve tag text = .ok r) : (scalarValue tag text).Gives r := by
  rw [scalarValue, h]
  exact .pure r

-- A text with the tag of one is taken as it is written.
theorem resolve_strTag (text : Text) : Yaml.resolve strTag text = .ok .text := rfl

/-! ## Texts, truth values and lists -/

-- A scalar with the tag of a text is its own text.
theorem textOf_gives {text : Text} (hshows : Shows node (.string text)) :
    (textOf node).Gives (some text) := by
  cases hshows with
  | string text line => exact (scalarValue_gives (resolve_strTag text)).bind (.pure (some text))

theorem flagOf_gives {flag : Bool} (hshows : Shows node (.bool flag)) :
    (flagOf node).Gives (some flag) := by
  cases hshows with
  | bool line h => exact (scalarValue_gives h).bind (.pure (some flag))

theorem setText_gives {σ : Type} {text : Text} (hshows : Shows node (.string text)) (value : σ)
    (set : Text → σ) : (setText doc node value set).Gives (set text) :=
  (visit_gives doc hshows (textOf_gives hshows)).bind (.pure (set text))

theorem setFlag_gives {σ : Type} {flag : Bool} (hshows : Shows node (.bool flag)) (value : σ)
    (set : Bool → σ) : (setFlag doc node value set).Gives (set flag) :=
  (visit_gives doc hshows (flagOf_gives hshows)).bind (.pure (set flag))

-- Items that show values are decoded one by one, and none is dropped.
theorem filterMapM_gives {write : α → Json} {meaning : α → β} {entry : Node → Decoder (Option β)}
    (h : ∀ node a, Shows node (write a) → (entry node).Gives (some (meaning a)))
    {all : List α} {items : List Node} (hshows : ShowsAll items (all.map write)) :
    (items.filterMapM fun item => visit doc item entry).Gives (all.map meaning) := by
  induction all generalizing items with
  | nil =>
    cases hshows
    exact .pure []
  | cons a all ih =>
    cases hshows with
    | cons hitem hmore =>
      rw [List.filterMapM_cons]
      exact (visit_gives doc hitem (h _ a hitem)).bind ((ih hmore).bind (.pure _))

-- A list is decoded into its items, whatever was there before.
theorem listValue_gives (doc : Yaml.Document) {write : α → Json} {meaning : α → β}
    {entry : Node → Decoder (Option β)}
    (h : ∀ node a, Shows node (write a) → (entry node).Gives (some (meaning a)))
    {all : List α} (hshows : Shows node (.array (all.map write))) (target : Target)
    (earlier : Option (List β)) :
    (listValue doc target entry earlier node).Gives (some (all.map meaning)) := by
  refine visit_gives doc hshows ?_
  cases hshows with
  | array line hitems => exact (filterMapM_gives h hitems).bind (.pure _)

/-! ## Records -/

variable {φ σ : Type} {layout : Layout φ σ} {shape : Shape σ}

/-- A shape knows the fields of a layout, and decodes what shows their values. -/
def Shape.Knows (shape : Shape σ) (layout : Layout φ σ) : Prop :=
  ∀ state field node, Shows node (layout.value field) →
    ∃ step, shape.field state (layout.key field) node = some step ∧
      step.Gives (layout.set state field)

-- A key with the tag of a text asks for no merge, whatever it is.
theorem isMergeKey_strTag (key : Text) (line : Nat) :
    isMergeKey (.scalar strTag key line) = false := by
  have htag : (strTag == Yaml.mergeTag) = false := by decide
  rw [isMergeKey, htag, Bool.and_false]

theorem key_of_mem_shows {members : List (Text × Json)} {entries : List (Node × Node)}
    (hshows : ShowsMembers entries members) {entry : Node × Node} (hentry : entry ∈ entries) :
    ∃ key ∈ members.map (·.1), ∃ line, entry.1 = .scalar strTag key line := by
  induction members generalizing entries with
  | nil =>
    cases hshows
    cases hentry
  | cons member members ih =>
    cases hshows with
    | cons key line hnode hmore =>
      rcases List.mem_cons.mp hentry with rfl | hrest
      · exact ⟨key, List.mem_cons_self .., line, rfl⟩
      · obtain ⟨later, hlater, hshown⟩ := ih hmore hrest
        exact ⟨later, List.mem_cons_of_mem _ hlater, hshown⟩

-- Different texts are different keys.
theorem repeatedKeys_eq_nil {members : List (Text × Json)} {entries : List (Node × Node)}
    (hshows : ShowsMembers entries members) (hdistinct : (members.map (·.1)).Nodup) :
    repeatedKeys entries = [] := by
  induction members generalizing entries with
  | nil =>
    cases hshows
    rfl
  | cons member members ih =>
    cases hshows with
    | cons key line hnode hmore =>
      obtain ⟨hnew, hrest⟩ := List.nodup_cons.mp hdistinct
      rw [repeatedKeys, ih hmore hrest, List.append_nil, List.map_eq_nil_iff,
        List.filter_eq_nil_iff]
      intro other hother
      obtain ⟨otherKey, hmem, otherLine, hshown⟩ := key_of_mem_shows hmore hother
      have hne : key ≠ otherKey := fun h => hnew (h ▸ hmem)
      simp [hshown, Node.text, hne]

-- So there is nothing to be merged.
theorem find?_isMergeKey_eq_none {members : List (Text × Json)} {entries : List (Node × Node)}
    (hshows : ShowsMembers entries members) :
    (entries.reverse.find? fun (key, _) => isMergeKey key) = none := by
  rw [List.find?_eq_none]
  rintro ⟨key, node⟩ hentry
  obtain ⟨text, -, line, rfl⟩ := key_of_mem_shows hshows (List.mem_reverse.mp hentry)
  simp only [isMergeKey_strTag, Bool.false_eq_true, not_false_eq_true]

-- By induction on the fields: those that were set before are not among those to come.
theorem fields_gives (doc : Yaml.Document) (hknows : shape.Knows layout)
    {all : List φ} {entries : List (Node × Node)}
    (hshows : ShowsMembers entries (all.map fun field => (layout.key field, layout.value field)))
    (hdistinct : (all.map layout.key).Nodup) {done : List Text}
    (hnew : ∀ field ∈ all, layout.key field ∉ done) (state : σ) :
    (fields doc shape none done state entries).Gives (all.foldl layout.set state, none) := by
  induction all generalizing entries done state with
  | nil =>
    cases hshows
    exact .pure _
  | cons field all ih =>
    cases hshows with
    | cons _ line hnode hmore =>
      obtain ⟨hother, hrest⟩ := List.nodup_cons.mp hdistinct
      obtain ⟨step, hstep, hgives⟩ := hknows state field _ hnode
      have hfirst : (shape.isRecord && done.contains (layout.key field)) = false := by
        simp [hnew field (List.mem_cons_self ..)]
      have hlater : ∀ later ∈ all, layout.key later ∉ layout.key field :: done := by
        intro later hlater hmem
        rcases List.mem_cons.mp hmem with hsame | hmem
        · exact hother (hsame ▸ List.mem_map_of_mem hlater)
        · exact hnew later (List.mem_cons_of_mem _ hlater) hmem
      have hkey : (textValue doc (.scalar strTag (layout.key field) line)).Gives
          (some (layout.key field)) :=
        visit_gives doc (.string _ line) (textOf_gives (.string _ line))
      rw [fields, isMergeKey_strTag]
      refine hkey.bind ?_
      simp only [Option.any_none, Bool.false_eq_true, if_false, hstep, hfirst]
      exact hgives.bind (ih hmore hrest hlater _)

-- A record is filled with its fields, and nothing is merged into it.
theorem recordOf_gives (hnesting : 0 < doc.nesting) (hknows : shape.Knows layout)
    {all : Fields layout} (hshows : Shows node all.toJson) (state : σ) :
    (recordOf doc shape state node).Gives (all.fill state) := by
  obtain ⟨fuel, hfuel⟩ := Nat.exists_eq_succ_of_ne_zero (Nat.pos_iff_ne_zero.mp hnesting)
  obtain ⟨entries, line, rfl, hmembers⟩ := Fields.exists_mapping hshows
  have hkeys := repeatedKeys_eq_nil hmembers (by rw [List.map_map]; exact all.distinct)
  have hown := fields_gives doc hknows hmembers all.distinct (fun _ _ => List.not_mem_nil) state
  rw [recordOf, hfuel, merged]
  simp only [hkeys, ne_eq, not_true_eq_false, if_false, find?_isMergeKey_eq_none hmembers]
  exact (hown.bind (.pure _)).bind (.pure _)

/-! ## Grammars -/

theorem enumValue_gives (hnesting : 0 < doc.nesting) (v : Value) (hshows : Shows node v.toJson) :
    (enumValue doc node).Gives (some v.meaning) := by
  cases v with
  | bare name =>
    cases hshows with
    | string _ line => exact .pure _
  | full all =>
    have hbody : (recordOf doc (enumShape doc .valueBody) ⟨[], []⟩ node).Gives
        (all.fill ⟨[], []⟩) := by
      refine recordOf_gives hnesting (fun state field node hshows => ?_) hshows _
      cases field <;> exact ⟨_, rfl, setText_gives hshows state _⟩
    obtain ⟨entries, line, rfl, -⟩ := Fields.exists_mapping hshows
    exact (count_gives.bind hbody).apart.bind (.pure _)

theorem attributeBody_gives (hnesting : 0 < doc.nesting) (all : Fields attributeLayout)
    (hshows : Shows node all.toJson) : (attributeBody doc node).Gives (all.fill .empty) := by
  refine recordOf_gives hnesting (fun state field node hshows => ?_) hshows _
  cases field with
  | deprecated flag => exact ⟨_, rfl, setFlag_gives hshows state _⟩
  | values all =>
    have hlist := listValue_gives doc (fun _ v => enumValue_gives hnesting v) hshows .values
      state.values
    exact ⟨_, rfl, hlist.bind (.pure _)⟩
  | _ => exact ⟨_, rfl, setText_gives hshows state _⟩

theorem attributeEntry_gives (hnesting : 0 < doc.nesting) (entry : Entry)
    (hshows : Shows node entry.toJson) : (attributeEntry doc node).Gives (some entry.meaning) := by
  cases entry with
  | bare name =>
    cases hshows with
    | string _ line => exact .pure _
  | inline all =>
    have hbody := attributeBody_gives hnesting all hshows
    obtain ⟨entries, line, rfl, -⟩ := Fields.exists_mapping hshows
    exact (count_gives.bind hbody).apart.bind (.pure _)

theorem elementBody_gives (hnesting : 0 < doc.nesting) (all : Fields elementLayout)
    (hshows : Shows node all.toJson) : (elementBody doc node).Gives (all.fill .empty) := by
  refine recordOf_gives hnesting (fun state field node hshows => ?_) hshows _
  cases field with
  | documentation text => exact ⟨_, rfl, setText_gives hshows state _⟩
  | children names =>
    have hlist : (listValue doc .texts textOf state.children node).Gives (some (names.map id)) :=
      listValue_gives doc (fun _ _ => textOf_gives) hshows .texts state.children
    rw [List.map_id] at hlist
    exact ⟨_, rfl, hlist.bind (.pure _)⟩
  | attributes entries =>
    have hlist := listValue_gives doc (fun _ entry => attributeEntry_gives hnesting entry) hshows
      .entries state.attributes
    exact ⟨_, rfl, hlist.bind (.pure _)⟩
  | _ => exact ⟨_, rfl, setFlag_gives hshows state _⟩

-- An element of a mapping takes its name from the key.
theorem element_of_shows (hnesting : 0 < doc.nesting) (definition : Text × Fields elementLayout)
    (line : Nat) (hshows : Shows node definition.2.toJson) :
    element doc (.scalar strTag definition.1 line) node = .ok (Written.element definition) := by
  have hbody := elementBody_gives hnesting definition.2 hshows
  have hfinish := (visit_gives doc hshows hbody).finish
  simp only [element, hfinish]
  rfl

theorem mapM_element_gives (hnesting : 0 < doc.nesting)
    {definitions : List (Text × Fields elementLayout)} {entries : List (Node × Node)}
    (hshows : ShowsMembers entries (definitions.map fun d => (d.1, d.2.toJson))) :
    Decoder.Gives (entries.mapM fun (key, body) => (element doc key body : Except Fault Element))
      (definitions.map Written.element) := by
  induction definitions generalizing entries with
  | nil =>
    cases hshows
    exact .pure _
  | cons definition definitions ih =>
    cases hshows with
    | cons key line hnode hmore =>
      rw [List.mapM_cons]
      have hfirst := Decoder.Gives.lift (element_of_shows hnesting definition line hnode)
      exact hfirst.bind ((ih hmore).bind (.pure _))

-- Earlier elements stay in front.
theorem elements_gives (hnesting : 0 < doc.nesting)
    (definitions : List (Text × Fields elementLayout)) (earlier : List Element)
    (hshows : Shows node (documentLayout.value (.elements definitions))) :
    (elements doc earlier node).Gives (earlier ++ definitions.map Written.element) := by
  refine visit_gives doc hshows ?_
  simp only [documentLayout] at hshows
  cases hshows with
  | object line hmembers => exact (mapM_element_gives hnesting hmembers).bind (.pure _)

theorem globals_gives (hnesting : 0 < doc.nesting) (definitions : Fields globalLayout)
    (known : List (Text × Option Attribute)) (hshows : Shows node definitions.toJson) :
    (globals doc known node).Gives (definitions.fill known) := by
  have hbody : (recordOf doc (globalShape doc) known node).Gives (definitions.fill known) := by
    refine recordOf_gives hnesting (fun state definition node hshows => ?_) hshows _
    have hbody := attributeBody_gives hnesting definition.2 hshows
    refine ⟨_, rfl, (visit_gives doc hshows ?_).bind (.pure _)⟩
    obtain ⟨entries, line, rfl, -⟩ := Fields.exists_mapping hshows
    exact hbody.bind (.pure (some (definition.2.fill .empty)))
  refine visit_gives doc hshows ?_
  obtain ⟨entries, line, rfl, -⟩ := Fields.exists_mapping hshows
  exact hbody

/-- A tree that shows a document says what the document means. -/
theorem document_of_shows (hnesting : 0 < doc.nesting) (d : Written.Document)
    (hroot : doc.root = some node) (hshows : Shows node d.toJson) :
    document doc = .ok d.meaning := by
  have hbody : (recordOf doc (documentShape doc) .empty node).Gives d.meaning := by
    refine recordOf_gives hnesting (fun state field node hshows => ?_) hshows _
    cases field with
    | elements definitions =>
      exact ⟨_, rfl, (elements_gives hnesting definitions _ hshows).bind (.pure _)⟩
    | attributes definitions =>
      exact ⟨_, rfl, (globals_gives hnesting definitions _ hshows).bind (.pure _)⟩
  rw [document, hroot]
  exact (count_gives.bind (visit_gives doc hshows hbody)).finish

end SvgAssist.Grammar.FromYaml
