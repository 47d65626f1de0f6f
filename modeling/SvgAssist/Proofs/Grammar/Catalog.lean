import SvgAssist.Grammar.Catalog
import Mathlib.Data.List.Induction
import Mathlib.Data.List.Nodup
import Mathlib.Tactic.SplitIfs

/-!
# Catalogs

The names of the elements of a catalog are those of the definitions, each at the place where it came
first (`map_name_elements`). No two elements have the same name (`nodup_elements`), so that each of
them is what its name is looked up as (`element?_eq_some_iff`).
-/

namespace SvgAssist.Grammar

-- Where no two items have the same key, an item is found by its key.
theorem find?_eq_some_iff_of_nodup {α : Type} {key : α → Text} {items : List α}
    (h : (items.map key).Nodup) {k : Text} {item : α} :
    items.find? (key · == k) = some item ↔ item ∈ items ∧ key item = k := by
  constructor
  · intro hfound
    exact ⟨List.mem_of_find?_eq_some hfound, by simpa using List.find?_some hfound⟩
  · rintro ⟨hmem, rfl⟩
    obtain ⟨found, hfound⟩ : ∃ found, items.find? (key · == key item) = some found :=
      Option.isSome_iff_exists.mp
        (List.find?_isSome.mpr ⟨item, hmem, beq_self_eq_true (key item)⟩)
    have hkey : key found = key item := by simpa using List.find?_some hfound
    rw [hfound, List.inj_on_of_nodup_map h (List.mem_of_find?_eq_some hfound) hmem hkey]

namespace Catalog

-- A name that is there keeps its place.
theorem map_name_define (elements : List Element) (e : Element) :
    (define elements e).map (·.name) =
      if e.name ∈ elements.map (·.name) then elements.map (·.name)
      else elements.map (·.name) ++ [e.name] := by
  have hany : elements.any (·.name == e.name) = true ↔ e.name ∈ elements.map (·.name) := by
    simp
  unfold define
  by_cases hmem : e.name ∈ elements.map (·.name)
  · rw [if_pos (hany.mpr hmem), if_pos hmem, List.map_map]
    -- Only an element of that name is replaced.
    refine List.map_congr_left fun old _ => ?_
    simp only [Function.comp_apply, beq_iff_eq]
    split
    · rename_i hname
      exact hname.symm
    · rfl
  · rw [if_neg (mt hany.mp hmem), if_neg hmem, List.map_append, List.map_singleton]

theorem eraseDups_concat (known : List Text) (name : Text) :
    (known ++ [name]).eraseDups =
      if name ∈ known then known.eraseDups else known.eraseDups ++ [name] := by
  rw [List.eraseDups_append]
  split_ifs with hknown
  · simp [List.removeAll, hknown]
  · simp [List.removeAll, hknown, List.eraseDups_cons]

-- In the order in which they first occur the names are different.
theorem nodup_eraseDups (names : List Text) : names.eraseDups.Nodup := by
  induction names using List.reverseRecOn with
  | nil => exact .nil
  | append_singleton names name ih =>
    rw [eraseDups_concat]
    split_ifs with hknown
    · exact ih
    · exact List.nodup_append_comm.mp (ih.cons (mt List.mem_eraseDups.mp hknown))

-- Every name keeps the place at which it came first.
theorem map_name_foldl_define (elements : List Element) :
    (elements.foldl define []).map (·.name) = (elements.map (·.name)).eraseDups := by
  induction elements using List.reverseRecOn with
  | nil => rfl
  | append_singleton elements e ih =>
    rw [List.foldl_concat, map_name_define, ih, List.map_append, List.map_singleton,
      eraseDups_concat]
    simp only [List.mem_eraseDups]

variable (elements : List (Option Element)) (attributes : List (Text × Option Attribute))

theorem map_name_elements : (ofDefinitions elements attributes).elements.map (·.name) =
    ((elements.filterMap id).map (·.name)).eraseDups := map_name_foldl_define _

theorem nodup_elements : ((ofDefinitions elements attributes).elements.map (·.name)).Nodup := by
  rw [map_name_elements]
  exact nodup_eraseDups _

variable {elements attributes}

theorem mem_names_ofDefinitions {name : Text} {elements : List Element}
    (h : name ∈ (ofDefinitions (elements.map some) attributes).elements.map (·.name)) :
    name ∈ elements.map (·.name) := by
  have hsome : (elements.map some).filterMap id = elements := by simp
  rwa [map_name_elements, hsome, List.mem_eraseDups] at h

-- With different names, the first element of a name is the only one.
theorem element?_eq_some_iff {name : Text} {e : Element} :
    (ofDefinitions elements attributes).element? name = some e ↔
      e ∈ (ofDefinitions elements attributes).elements ∧ e.name = name :=
  find?_eq_some_iff_of_nodup (nodup_elements elements attributes)

theorem element?_of_mem {e : Element} (he : e ∈ (ofDefinitions elements attributes).elements) :
    (ofDefinitions elements attributes).element? e.name = some e :=
  element?_eq_some_iff.mpr ⟨he, rfl⟩

end Catalog

end SvgAssist.Grammar
