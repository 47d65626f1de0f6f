import SvgAssist.Grammar.Document
import SvgAssist.Proofs.Grammar.Catalog
import Mathlib.Data.List.Induction

/-!
# Registries

A registry is how the elements of a catalog are kept while they are read: in a list, in their order,
and in an index by their names. Definitions come one after another; one whose name is known takes
the place of the earlier one in the list and in the index. That the two never come apart is part of
the type. What a registry holds after some definitions is told by what it held before the last of
them (`Holds.add`), and it is what the catalog of the definitions has (`catalog_of_registry`).
-/

namespace SvgAssist.Grammar

namespace Document

variable {α : Type} (key : Text) (value : α) (entries : List (Text × α)) (k : Text)

theorem lookup_cons (entry : Text × α) :
    (entry :: entries).lookup k = if k = entry.1 then some entry.2 else entries.lookup k := by
  rw [List.lookup_cons]
  by_cases h : k = entry.1
  · rw [beq_iff_eq.mpr h, if_pos h]
  · rw [beq_false_of_ne h, if_neg h]

-- Putting an entry changes what its key leads to and nothing else.
theorem lookup_put :
    (put key value entries).lookup k = if k = key then some value else entries.lookup k := by
  have hreplaced :
      (entries.map fun entry => if entry.1 == key then (key, value) else entry).lookup k =
        if k = key ∧ entries.any (·.1 == key) then some value else entries.lookup k := by
    induction entries with
    | nil => simp
    | cons entry entries ih =>
      rw [List.map_cons, lookup_cons, ih, List.any_cons, lookup_cons]
      grind
  unfold put
  split_ifs with hany hk hk
  · rw [hreplaced, if_pos ⟨hk, hany⟩]
  · rw [hreplaced, if_neg fun h => hk h.1]
  · subst hk
    have hnone : entries.lookup k = none := by
      rw [List.lookup_eq_none_iff]
      intro entry hentry
      by_contra hkey
      have hsame : k = entry.1 := by simpa using hkey
      exact hany (List.any_eq_true.mpr ⟨entry, hentry, beq_iff_eq.mpr hsame.symm⟩)
    rw [List.lookup_append, hnone, lookup_cons, if_pos rfl]
    rfl
  · rw [List.lookup_append, lookup_cons, if_neg hk, List.lookup_nil, Option.or_none]

end Document

/-- A copy of a definition, with the place of the definition among all of them. Two copies of
definitions that say the same are told apart by their places. -/
structure Registration where
  place : Nat
  element : Element
deriving DecidableEq, Repr

/-- Elements in their order, and an index that leads from each name to the entry in the list. -/
structure Registry where
  order : List Registration
  byName : List (Text × Registration)
  indexed : ∀ name entry, byName.lookup name = some entry ↔
    entry ∈ order ∧ entry.element.name = name

namespace Registry

def find? (r : Registry) (name : Text) : Option Registration := r.byName.lookup name

def empty : Registry := ⟨[], [], by simp⟩

/-- The list with one more entry, which replaces all of its name if the index knows the name. -/
def placed (r : Registry) (e : Registration) : List Registration :=
  if (r.find? e.element.name).isSome then
    r.order.map fun earlier => if earlier.element.name = e.element.name then e else earlier
  else r.order ++ [e]

theorem isSome_find? (r : Registry) (name : Text) :
    (r.find? name).isSome ↔ name ∈ r.order.map (·.element.name) := by
  rw [Option.isSome_iff_exists, List.mem_map]
  exact exists_congr fun entry => r.indexed name entry

-- An entry is the new one, or an old one of another name.
theorem mem_placed (r : Registry) (e entry : Registration) :
    entry ∈ r.placed e ↔ entry = e ∨ entry ∈ r.order ∧ entry.element.name ≠ e.element.name := by
  unfold placed
  split_ifs with hknown
  · obtain ⟨old, hold, hname⟩ := List.mem_map.mp ((r.isSome_find? _).mp hknown)
    rw [List.mem_map]
    constructor
    · rintro ⟨earlier, hearlier, rfl⟩
      split_ifs with h
      · exact .inl rfl
      · exact .inr ⟨hearlier, h⟩
    · rintro (rfl | ⟨hentry, hother⟩)
      · exact ⟨old, hold, if_pos hname⟩
      · exact ⟨entry, hentry, if_neg hother⟩
  · have hother : entry ∈ r.order → entry.element.name ≠ e.element.name := fun hentry hname =>
      hknown ((r.isSome_find? _).mpr (List.mem_map.mpr ⟨entry, hentry, hname⟩))
    rw [List.mem_append, List.mem_singleton, or_comm]
    exact or_congr_right ⟨fun hentry => ⟨hentry, hother hentry⟩, And.left⟩

def add (r : Registry) (e : Registration) : Registry where
  order := r.placed e
  byName := Document.put e.element.name e r.byName
  indexed name entry := by
    rw [Document.lookup_put, mem_placed]
    split_ifs with hname
    · subst hname
      grind
    · rw [r.indexed]
      grind

def ofDefinitions (definitions : List (Option Element)) : Registry :=
  definitions.zipIdx.foldl
    (fun r (definition, place) =>
      match definition with
      | none => r
      | some e => r.add ⟨place, e⟩)
    empty

def IsLast (definitions : List (Option Element)) (entry : Registration) : Prop :=
  definitions[entry.place]? = some (some entry.element) ∧
    ∀ place e, entry.place < place → definitions[place]? = some (some e) →
      e.name ≠ entry.element.name

/-- What a registry holds when it has been given some definitions: the elements of their catalog,
each from the last definition of its name. -/
structure Holds (definitions : List (Option Element)) (r : Registry) : Prop where
  elements : r.order.map (·.element) = (definitions.filterMap id).foldl Catalog.define []
  last : ∀ entry ∈ r.order, IsLast definitions entry

-- As far as the elements go, entering in the list is what the catalog does.
theorem map_element_placed (r : Registry) (e : Registration) :
    (r.placed e).map (·.element) = Catalog.define (r.order.map (·.element)) e.element := by
  have hknown : (r.find? e.element.name).isSome = true ↔
      (r.order.map (·.element)).any (·.name == e.element.name) = true := by
    rw [isSome_find?]
    simp
  unfold placed Catalog.define
  by_cases h : (r.find? e.element.name).isSome = true
  · rw [if_pos h, if_pos (hknown.mp h), List.map_map, List.map_map]
    refine List.map_congr_left fun earlier _ => ?_
    simp only [Function.comp_apply, beq_iff_eq]
    split_ifs <;> rfl
  · rw [if_neg h, if_neg (mt hknown.mpr h), List.map_append, List.map_singleton]

-- A later definition of another name leaves the last one of a name as it is.
theorem IsLast.append {definitions : List (Option Element)} {entry : Registration}
    (h : IsLast definitions entry) {definition : Option Element}
    (hother : ∀ e, definition = some e → e.name ≠ entry.element.name) :
    IsLast (definitions ++ [definition]) entry := by
  obtain ⟨hplace, hbehind⟩ := h
  obtain ⟨hlt, -⟩ := List.getElem?_eq_some_iff.mp hplace
  refine ⟨by rw [List.getElem?_append_left hlt, hplace], fun place e hlater he => ?_⟩
  rcases Nat.lt_or_ge place definitions.length with hinside | hbeyond
  · rw [List.getElem?_append_left hinside] at he
    exact hbehind place e hlater he
  · rw [List.getElem?_append_right hbeyond] at he
    exact hother e (List.mem_singleton.mp (List.mem_of_getElem? he)).symm

-- What was added last is the last of its name.
theorem isLast_concat (definitions : List (Option Element)) (e : Element) :
    IsLast (definitions ++ [some e]) ⟨definitions.length, e⟩ := by
  refine ⟨List.getElem?_concat_length, fun place e' hlater he' => ?_⟩
  have hlt := (List.getElem?_eq_some_iff.mp he').1
  rw [List.length_append, List.length_singleton] at hlt
  simp only at hlater
  omega

-- A missing definition changes nothing but the places of those that follow.
theorem Holds.skip {definitions : List (Option Element)} {r : Registry} (h : Holds definitions r) :
    Holds (definitions ++ [none]) r where
  elements := by
    rw [h.elements, List.filterMap_append]
    exact (congrArg _ (List.append_nil _)).symm
  last entry hentry := (h.last entry hentry).append fun e he => by cases he

-- The index goes on leading to the entry of each name.
theorem Holds.add {definitions : List (Option Element)} {r : Registry} (h : Holds definitions r)
    (e : Element) : Holds (definitions ++ [some e]) (r.add ⟨definitions.length, e⟩) where
  elements := by
    have hone : [some e].filterMap id = [e] := rfl
    rw [List.filterMap_append, hone, List.foldl_concat, ← h.elements]
    exact map_element_placed r ⟨definitions.length, e⟩
  last entry hentry := by
    rcases (r.mem_placed _ entry).mp hentry with rfl | ⟨hold, hother⟩
    · exact isLast_concat definitions e
    · refine (h.last entry hold).append fun e' he' => ?_
      cases he'
      exact hother.symm

-- By induction on the definitions, the last one being entered last.
theorem holds_ofDefinitions (definitions : List (Option Element)) :
    Holds definitions (ofDefinitions definitions) := by
  induction definitions using List.reverseRecOn with
  | nil => exact ⟨rfl, fun entry hentry => absurd hentry List.not_mem_nil⟩
  | append_singleton definitions definition ih =>
    have hrun : ofDefinitions (definitions ++ [definition]) =
        match definition with
        | none => ofDefinitions definitions
        | some e => (ofDefinitions definitions).add ⟨definitions.length, e⟩ := by
      rw [ofDefinitions, List.zipIdx_append, Nat.zero_add, List.foldl_append]
      rfl
    rw [hrun]
    cases definition with
    | none => exact ih.skip
    | some e => exact ih.add e

end Registry

namespace Catalog

variable {definitions : List (Option Element)} {attributes : List (Text × Option Attribute)}

theorem mem_attributes_ofDefinitions {key : Text} {a : Attribute} :
    (key, a) ∈ (ofDefinitions definitions attributes).attributes ↔
      ∃ given, (key, some given) ∈ attributes ∧ a = named key given := by
  rw [ofDefinitions, List.mem_filterMap]
  constructor
  · rintro ⟨⟨k, given⟩, hmem, hkey⟩
    obtain ⟨given, rfl, hpair⟩ := Option.map_eq_some_iff.mp hkey
    cases hpair
    exact ⟨given, hmem, rfl⟩
  · rintro ⟨given, hmem, rfl⟩
    exact ⟨(key, some given), hmem, rfl⟩

theorem nodup_attributes (hkeys : (attributes.map (·.1)).Nodup) :
    ((ofDefinitions definitions attributes).attributes.map (·.1)).Nodup := by
  refine hkeys.sublist ?_
  change ((attributes.filterMap _).map _).Sublist _
  clear hkeys
  induction attributes with
  | nil => exact .slnil
  | cons entry attributes ih =>
    obtain ⟨key, _ | a⟩ := entry
    · exact ih.cons key
    · exact ih.cons_cons key

-- The keys are different, so the first attribute of a key is the only one.
theorem attribute?_ofDefinitions (hkeys : (attributes.map (·.1)).Nodup) {key : Text}
    {a : Attribute} :
    (ofDefinitions definitions attributes).attribute? key = some a ↔
      ∃ given, (key, some given) ∈ attributes ∧ a = named key given := by
  have hfind (entry : Text × Attribute) :
      ((ofDefinitions definitions attributes).attributes.find? (·.1 == key)) = some entry ↔
        entry ∈ (ofDefinitions definitions attributes).attributes ∧ entry.1 = key :=
    find?_eq_some_iff_of_nodup (nodup_attributes hkeys)
  rw [attribute?, Option.map_eq_some_iff, ← mem_attributes_ofDefinitions]
  constructor
  · rintro ⟨⟨k, a⟩, hfound, rfl⟩
    obtain ⟨hmem, rfl⟩ := (hfind _).mp hfound
    exact hmem
  · intro hmem
    exact ⟨(key, a), (hfind _).mpr ⟨hmem, rfl⟩, rfl⟩

/-- A catalog is what a registry of its definitions holds, which keeps a list and an index by names.
Each name stands once, at the place where it came first, with the last definition of that name, and
is looked up as the very entry that stands in the list. Global attributes are found under the keys
that have one, and are called by their key if they have no name. -/
theorem catalog_of_registry (definitions : List (Option Element))
    {attributes : List (Text × Option Attribute)} (hkeys : (attributes.map (·.1)).Nodup) :
    let c := ofDefinitions definitions attributes
    let r := Registry.ofDefinitions definitions
    let names := (definitions.filterMap id).map (·.name)
    c.elements = r.order.map (·.element) ∧
      (∀ name, c.element? name = (r.find? name).map (·.element)) ∧
      (c.elements.map (·.name) = names.eraseDups ∧ (c.elements.map (·.name)).Nodup) ∧
      (∀ entry ∈ r.order, Registry.IsLast definitions entry) ∧
      (∀ name entry, r.find? name = some entry ↔ entry ∈ r.order ∧ entry.element.name = name) ∧
      (∀ name, (c.element? name).isSome ↔ name ∈ names) ∧
      c.size = names.eraseDups.length ∧
      ∀ key a, c.attribute? key = some a ↔
        ∃ given, (key, some given) ∈ attributes ∧ a = named key given := by
  intro c r names
  have hholds := Registry.holds_ofDefinitions definitions
  have helements : c.elements = r.order.map (·.element) := hholds.elements.symm
  have hnames : c.elements.map (·.name) = names.eraseDups := map_name_elements _ _
  have hfind (name : Text) : c.element? name = (r.find? name).map (·.element) := by
    refine Option.ext fun e => ?_
    rw [element?_eq_some_iff, Option.map_eq_some_iff]
    change e ∈ c.elements ∧ _ ↔ _
    rw [helements, List.mem_map]
    constructor
    · rintro ⟨⟨entry, hentry, rfl⟩, hname⟩
      exact ⟨entry, (r.indexed name entry).mpr ⟨hentry, hname⟩, rfl⟩
    · rintro ⟨entry, hentry, rfl⟩
      obtain ⟨hmem, hname⟩ := (r.indexed name entry).mp hentry
      exact ⟨⟨entry, hmem, rfl⟩, hname⟩
  refine ⟨helements, hfind, ⟨hnames, nodup_elements definitions attributes⟩, hholds.last, r.indexed,
    fun name => ?_, ?_, fun key a => attribute?_ofDefinitions hkeys⟩
  · have hlisted : name ∈ names ↔ name ∈ c.elements.map (·.name) := by
      rw [hnames, List.mem_eraseDups]
    rw [hlisted, helements, List.map_map, hfind, Option.isSome_map]
    exact r.isSome_find? name
  · rw [← hnames, List.length_map]
    rfl

/-- An element that is defined twice and one between its definitions, an attribute without a name
and one that is missing. -/
theorem catalog_of_registry_twice :
    let circle : Element := { Element.empty with name := utf8 "circle" }
    let path : Element := { Element.empty with name := utf8 "path" }
    let fill : Attribute := Attribute.empty
    let definitions := [some circle, none, some path, some { circle with simple := true }]
    let attributes := [(utf8 "fill", some fill), (utf8 "x", none)]
    let c := ofDefinitions definitions attributes
    (attributes.map (·.1)).Nodup ∧
      c.elements = [{ circle with simple := true }, path] ∧
      (Registry.ofDefinitions definitions).find? (utf8 "circle") =
        some ⟨3, { circle with simple := true }⟩ ∧
      c.size = 2 ∧ (c.element? (utf8 "rect")).isSome = false ∧
      c.attribute? (utf8 "fill") = some { fill with name := utf8 "fill" } ∧
      ∀ a, c.attribute? (utf8 "x") ≠ some a := by
  intro circle path fill definitions attributes c
  have hkeys : (attributes.map (·.1)).Nodup := by decide
  obtain ⟨helements, hfind, -, -, hindex, hnames, hsize, hattribute⟩ :=
    catalog_of_registry definitions hkeys
  refine ⟨hkeys, helements.trans (by decide), (hindex _ _).mpr (by decide), hsize.trans (by decide),
    ?_, (hattribute _ _).mpr ⟨fill, by decide, by decide⟩, fun a h => ?_⟩
  · rw [← Bool.not_eq_true]
    exact mt (hnames (utf8 "rect")).mp (by decide)
  · obtain ⟨given, hmem, -⟩ := (hattribute _ a).mp h
    have hkey : utf8 "x" = utf8 "fill" ∧ given = fill := by simpa [attributes] using hmem
    exact absurd hkey.1 (by decide)

end Catalog

end SvgAssist.Grammar
