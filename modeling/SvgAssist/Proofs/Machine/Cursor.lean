import SvgAssist.Completion.Complete
import SvgAssist.Completion.Hover
import SvgAssist.Proofs.Machine.Enclosing
import SvgAssist.Proofs.Machine.Scan

/-!
# Cursors in machine arithmetic

Completion and hover at any position of 64 bits, as far out as there are. In 64 bits they read
nothing outside of a text or a line, and come to the same as with all numbers
(`extreme_positions_harmless`).
-/

namespace SvgAssist.Machine

open Completion Grammar
open Markup (Budget)

section

variable (m : Arithmetic) (c : Catalog)

/-! ## Completion -/

def tagCandidates (budget : Budget) (text : Text) (pos : Position) : Option (List Candidate) := do
  let front ← before m text pos
  let tag ← precedingTag m front
  match tag with
  | none => some [rootCandidate c pos]
  | some _ =>
    let parent ← parentElement m budget front
    match parent with
    | .error _ => some []
    | .ok parent => some (elementCandidates c (parent.getD []))

def nameCandidates (text : Text) (pos : Position) : Option (List Candidate) := do
  let front ← before m text pos
  let tag ← enclosingTag m front
  match tag with
  | none => some []
  | some tag => some (attributeCandidates c tag.name tag.rest)

def enumCandidates (text : Text) (pos : Position) : Option (List Candidate) := do
  let front ← before m text pos
  let found ← enclosingAttribute m front
  match found with
  | none => some []
  | some found =>
    if (c.element? found.tag).isNone then some []
    else some (((c.resolve found.tag found.name).map valueCandidates).getD [])

def complete (budget : Budget) (text : Text) (pos : Position) : Option (List Candidate) := do
  let context ← classifyAt m text pos
  match context with
  | .tagOpen => tagCandidates m c budget text pos
  | .attributeName => nameCandidates m c text pos
  | .attributeValue => enumCandidates m c text pos
  | .none => some []

/-! ## Hover -/

def hover (text : Text) (pos : Position) : Option (Option Hover) := do
  let line ← slice m text ⟨⟨pos.line, 0⟩, ⟨pos.line, farColumn⟩⟩
  let (start, stop) ← nameAt m line pos.column
  if start = stop then some none
  else
    let name ← cut? line start stop
    let range : Range := ⟨⟨pos.line, start⟩, ⟨pos.line, stop⟩⟩
    let front ← cut? line 0 start
    if (utf8 "<").isSuffixOf front || (utf8 "</").isSuffixOf front then
      some ((c.element? name).map fun e =>
        ⟨range, hoverContents (utf8 "<" ++ name ++ utf8 ">") [] e.documentation e.deprecated⟩)
    else
      let after ← cut? line stop line.length
      if (after.dropWhile fun b => b == Byte.space || b == Byte.tab).head? ≠ some Byte.equals then
        some none
      else
        let front ← before m text range.start
        let tag ← enclosingTag m front
        some (tag.bind fun tag => (c.resolve tag.name name).map fun a =>
          ⟨range, hoverContents name a.type a.documentation a.deprecated⟩)

/-! ## What the machine finds -/

variable {text : Text} (hsize : text.length < 2 ^ 31)
include hsize

-- The bound on the text is one on everything in front of a cursor.
theorem length_before_lt (pos : Position) : (Text.before text pos).length < 2 ^ 31 :=
  (Text.length_slice_le text _).trans_lt hsize

-- What is scanned is the cut in front of the cursor, to which the bound on the text carries over.
theorem tagCandidates_eq (budget : Budget) (pos : Position) :
    tagCandidates m c budget text pos = some (Completion.tagCandidates c budget text pos) := by
  have hfront := length_before_lt hsize pos
  rw [tagCandidates, before_eq m hsize, Completion.tagCandidates]
  simp only [Option.bind_eq_bind, Option.bind_some]
  rw [precedingTag_eq m hfront, Option.bind_some]
  cases Markup.precedingTag (Text.before text pos) with
  | none => rfl
  | some tag =>
    simp only
    rw [parentElement_eq m hfront, Option.bind_some]
    cases Markup.parentElement budget (Text.before text pos) <;> rfl

theorem nameCandidates_eq (pos : Position) :
    nameCandidates m c text pos = some (Completion.nameCandidates c text pos) := by
  rw [nameCandidates, before_eq m hsize, Completion.nameCandidates]
  simp only [Option.bind_eq_bind, Option.bind_some]
  rw [enclosingTag_eq m (length_before_lt hsize pos), Option.bind_some]
  cases Markup.enclosingTag (Text.before text pos) <;> rfl

theorem enumCandidates_eq (pos : Position) :
    enumCandidates m c text pos = some (Completion.enumCandidates c text pos) := by
  rw [enumCandidates, before_eq m hsize, Completion.enumCandidates]
  simp only [Option.bind_eq_bind, Option.bind_some]
  rw [enclosingAttribute_eq m (length_before_lt hsize pos), Option.bind_some]
  cases Markup.enclosingAttribute (Text.before text pos) with
  | none => rfl
  | some found =>
    simp only
    split_ifs <;> rfl

theorem complete_eq (budget : Budget) {pos : Position} (hcolumn : IsWord pos.column) :
    complete m c budget text pos = some (Completion.complete c budget text pos) := by
  rw [complete, classifyAt_eq m hsize hcolumn, Completion.complete]
  simp only [Option.bind_eq_bind, Option.bind_some]
  cases Markup.classifyAt text pos with
  | none => rfl
  | tagOpen => exact tagCandidates_eq m c hsize budget pos
  | attributeName => exact nameCandidates_eq m c hsize pos
  | attributeValue => exact enumCandidates_eq m c hsize pos

omit hsize in
-- The bounds of a name are in its line.
theorem exists_bounds_of_nameAt {line : Text} {column start stop : Int}
    (h : Markup.nameAt line column = (start, stop)) (hne : start ≠ stop) :
    ∃ s e : Nat, start = s ∧ stop = e ∧ s ≤ e ∧ e ≤ line.length := by
  obtain ⟨n, front, tail, name, -, -, rfl, rfl, rfl, -⟩ := Markup.exists_of_nameAt h hne
  refine ⟨_, _, rfl, rfl, Nat.le_add_right _ _, ?_⟩
  rw [List.length_append, List.length_append]
  omega

theorem hover_eq (pos : Position) :
    hover m c text pos = some (Completion.hover c text pos) := by
  have hshort := (Text.length_slice_le text ⟨⟨pos.line, 0⟩, ⟨pos.line, farColumn⟩⟩).trans_lt hsize
  rw [hover, slice_eq m hsize, Completion.hover]
  simp only [Option.bind_eq_bind, Option.bind_some]
  set line := Text.slice text ⟨⟨pos.line, 0⟩, ⟨pos.line, farColumn⟩⟩
  rw [nameAt_eq m hshort, Option.bind_some]
  rcases hbounds : Markup.nameAt line pos.column with ⟨start, stop⟩
  simp only
  by_cases hnone : start = stop
  · rw [if_pos hnone, if_pos hnone]
  rw [if_neg hnone, if_neg hnone]
  obtain ⟨s, e, rfl, rfl, hle, hend⟩ := exists_bounds_of_nameAt hbounds hnone
  have hwidth : ((e : Int) - s).toNat = e - s := by omega
  rw [cut?_natCast hle hend, cut?_front (hle.trans hend), cut?_tail hend, before_eq m hsize, hwidth]
  simp only [Option.bind_some, Int.toNat_natCast, Option.map_eq_bind]
  split_ifs with htag hequals
  · rfl
  · rfl
  · rw [enclosingTag_eq m (length_before_lt hsize _), Option.bind_some]
    rfl

end

/-- What is found at a cursor. It is the same with numbers of 64 bits, which wrap around, and with
all numbers, and nothing is read outside of the text or a line: that would find nothing. -/
theorem extreme_positions_harmless (c : Catalog) (budget : Budget) (text : Text) (pos : Position)
    (hsize : text.length < 2 ^ 31) (hcolumn : IsWord pos.column) :
    ∀ m ∈ [Arithmetic.wrapping, Arithmetic.unbounded],
      classifyAt m text pos = some (Markup.classifyAt text pos) ∧
      before m text pos = some (Text.before text pos) ∧
      complete m c budget text pos = some (Completion.complete c budget text pos) ∧
      hover m c text pos = some (Completion.hover c text pos) :=
  fun m _ => ⟨classifyAt_eq m hsize hcolumn, before_eq m hsize pos,
    complete_eq m c hsize budget hcolumn, hover_eq m c hsize pos⟩

/-- Behind the last of all columns the character is looked for up to one in front of the text. -/
theorem extreme_positions_harmless_last :
    let text := utf8 "<"
    let pos : Position := ⟨0, 2 ^ 63 - 1⟩
    Arithmetic.wrapping.add pos.column Text.maxCharWidth < 0 ∧
      0 < Arithmetic.unbounded.add pos.column Text.maxCharWidth ∧
      complete .wrapping ⟨[], []⟩ .unlimited text pos =
        complete .unbounded ⟨[], []⟩ .unlimited text pos ∧
      hover .wrapping ⟨[], []⟩ text pos = hover .unbounded ⟨[], []⟩ text pos := by
  intro text pos
  have hfound := extreme_positions_harmless ⟨[], []⟩ .unlimited text pos (by decide) (by decide)
  obtain ⟨-, -, hcomplete, hhover⟩ := hfound .wrapping (by simp)
  obtain ⟨-, -, hcomplete', hhover'⟩ := hfound .unbounded (by simp)
  exact ⟨by decide, by decide, hcomplete.trans hcomplete'.symm, hhover.trans hhover'.symm⟩

end SvgAssist.Machine
