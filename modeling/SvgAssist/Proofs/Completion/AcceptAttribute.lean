import SvgAssist.Proofs.Completion.Accept
import SvgAssist.Proofs.Completion.Candidates
import SvgAssist.Proofs.Markup.Value
import Mathlib

/-!
# Accepting an attribute

An attribute that is accepted stands behind white space of a start tag, and the cursor goes between
its quotes. The tag is still the one that encloses the cursor there, and the attribute is the one
whose value begins there, so that its values are proposed next (`complete_after_attribute`).
-/

namespace SvgAssist.Completion

open Grammar Markup Text

/-! ## Where attributes are proposed -/

-- The root element counts as an element too.
theorem kind_of_mem_tagCandidates {catalog : Catalog} {budget : Budget} {text : Text}
    {pos : Position} {c : Candidate} (h : c ∈ tagCandidates catalog budget text pos) :
    c.kind = .element := by
  rcases mem_tagCandidates h with ⟨-, rfl⟩ | ⟨_, h⟩
  · rfl
  · obtain ⟨_, _, rfl⟩ := exists_of_mem_elementCandidates h
    rfl

-- Attributes are proposed only for a cursor behind a space, inside of a start tag.
theorem mem_nameCandidates_of_kind {catalog : Catalog} {budget : Budget} {text : Text}
    {pos : Position} {c : Candidate} (h : c ∈ complete catalog budget text pos)
    (hkind : c.kind = .attribute) :
    charBefore text pos = utf8 " " ∧ c ∈ nameCandidates catalog text pos := by
  unfold complete at h
  split at h
  · rw [kind_of_mem_tagCandidates h] at hkind
    exact absurd hkind (by decide)
  · rename_i hcontext
    refine ⟨?_, h⟩
    unfold classifyAt classify at hcontext
    split_ifs at hcontext with _ hspace
    simp only [Bool.and_eq_true, decide_eq_true_eq] at hspace
    exact hspace.1
  · obtain ⟨_, rfl⟩ := exists_of_mem_enumCandidates h
    exact absurd hkind (by simp [valueCandidate])
  · simp at h

/-! ## The values that follow -/

theorem classifyAt_behind_quote {text : Text} {pos : Position}
    (h : charBefore text pos = utf8 "\"") : classifyAt text pos = .attributeValue := by
  have hless : utf8 "\"" ≠ utf8 "<" := by decide
  have hspace : utf8 "\"" ≠ utf8 " " := by decide
  rw [classifyAt, h, classify, if_neg hless, if_neg (by simp [hspace]), if_pos (by simp)]

-- Behind the opening quote of an attribute, the cursor is at the beginning of its value.
theorem enclosingAttribute_append {text name : Text} {tag : EnclosingTag}
    (htag : enclosingTag text = some tag) (hspace : [Byte.space] <:+ text)
    (hquotes : tag.rest.count Byte.doubleQuote % 2 = 0) (hname : takeName name = name)
    (hne : name ≠ []) :
    enclosingAttribute (text ++ (name ++ utf8 "=\"")) = some ⟨tag.name, name⟩ := by
  obtain ⟨front, hrest⟩ := suffix_rest_of_enclosingTag htag hspace (by decide)
  have hmore : BracketFree (name ++ utf8 "=\"") := by
    refine (bracketFree_of_isNameByte fun b hb => ?_).append (by decide)
    rw [← hname] at hb
    exact isNameByte_of_mem_takeName hb
  have hopen : openValue (tag.rest ++ (name ++ utf8 "=\"")) = some (tag.rest, name) := by
    have hvalue : openValue (front ++ Byte.space :: (name ++ utf8 "=\"")) =
        some (front ++ [Byte.space], name) := openValue_append (by decide) hname hne
    rwa [hrest, ← List.singleton_append, ← List.append_assoc, hrest] at hvalue
  rw [enclosingAttribute, enclosingTag_append htag (by simp [← hrest]) hmore]
  simp only [Option.bind_eq_bind, Option.bind_some, hopen, if_pos hquotes]

-- Only declared values are proposed.
theorem valueCandidates_of_not_hasValues {a : Grammar.Attribute} (h : a.hasValues = false) :
    valueCandidates a = [] := by
  have hvalues : a.values.getD [] = [] := by
    cases hlist : a.values with
    | none => rfl
    | some list => simpa [Grammar.Attribute.hasValues, hlist] using h
  rw [valueCandidates, hvalues]
  rfl

section

variable (catalog : Catalog) (budget later : Budget) {text : Text} {o : Nat} {tag : EnclosingTag}
  {c : Candidate}

/-- An attribute that is accepted in a start tag has its values proposed at once, those that the
catalog knows for it on the element of that tag, and none when its command says that none follow. -/
theorem complete_after_attribute (ho : o ≤ text.length) (hafter : ¬ AfterReturn text o)
    (htag : enclosingTag (text.take o) = some tag)
    (hquotes : tag.rest.count Byte.doubleQuote % 2 = 0)
    (hc : c ∈ complete catalog budget text (positionAt text o)) (hkind : c.kind = .attribute)
    (hname : takeName c.label = c.label) (hne : c.label ≠ []) :
    complete catalog later (c.accept text o) (c.cursor text o) =
        ((catalog.resolve tag.name c.label).map valueCandidates).getD [] ∧
      (c.command.valuesFollow = false →
        complete catalog later (c.accept text o) (c.cursor text o) = []) := by
  obtain ⟨hprev, hc⟩ := mem_nameCandidates_of_kind hc hkind
  have hspace : [Byte.space] <:+ text.take o := by
    have hsuffix := charBefore_suffix ho hafter
    rwa [hprev] at hsuffix
  rw [nameCandidates, before_positionAt ho hafter, htag] at hc
  obtain ⟨hdefined, hshape⟩ := mem_attributeCandidates hc
  have htext : c.text = (c.label ++ utf8 "=\"") ++ utf8 "\"" := by
    rw [hshape, List.append_assoc]
    rfl
  have hbetween := between_left ho htext (by rw [hshape]; rfl) (by rw [hshape]; rfl) (by decide)
    (by decide)
  have hvalues : complete catalog later (c.accept text o) (c.cursor text o) =
      ((catalog.resolve tag.name c.label).map valueCandidates).getD [] := by
    have hopening : text.take o ++ (c.label ++ utf8 "=\"") =
        text.take o ++ (c.label ++ utf8 "=") ++ [Byte.doubleQuote] := by
      rw [List.append_assoc, List.append_assoc]
      rfl
    have hattribute := enclosingAttribute_append htag hspace hquotes hname hne
    rw [hopening] at hbetween hattribute
    have hquote := hbetween.charBefore_eq (by decide) (by decide) (by decide)
    rw [complete, classifyAt_behind_quote hquote]
    simp only
    rw [enumCandidates, hbetween.before_eq (by decide), hattribute]
    simp only [Option.isNone_iff_eq_none, Option.ne_none_iff_isSome.mpr hdefined, if_false]
  refine ⟨hvalues, fun hfollow => ?_⟩
  rw [hvalues]
  rw [hshape] at hfollow
  cases hresolve : catalog.resolve tag.name c.label with
  | none => rfl
  | some a =>
    have hno : a.hasValues = false := by rwa [hresolve] at hfollow
    rw [Option.map_some, Option.getD_some, valueCandidates_of_not_hasValues hno]

end

theorem complete_after_attribute_fill :
    let fill : Grammar.Attribute :=
      ⟨utf8 "fill", [], false, [], some [⟨utf8 "none", []⟩, ⟨utf8 "<color>", []⟩]⟩
    let rect : Grammar.Element :=
      ⟨utf8 "rect", [], false, true, false, none, some [.ref (utf8 "x"), .ref (utf8 "fill")]⟩
    let catalog : Catalog := ⟨[rect], [(utf8 "fill", fill)]⟩
    let text := utf8 "<rect x=\"1\" />"
    let c := attributeCandidate (utf8 "fill") (some fill)
    complete catalog .unlimited text (positionAt text (12 : Nat)) = [c] ∧
      c.accept text 12 = utf8 "<rect x=\"1\" fill=\"\"/>" ∧ c.cursor text 12 = ⟨0, 18⟩ ∧
      complete catalog .unlimited (c.accept text 12) (c.cursor text 12) =
        [valueCandidate ⟨utf8 "none", []⟩] := by
  intro fill rect catalog text c
  have hcontext : classifyAt text (positionAt text (12 : Nat)) = .attributeName := by
    subst text
    cbv
  have htag : enclosingTag (text.take 12) = some ⟨utf8 "rect", utf8 " x=\"1\" "⟩ := by decide
  have hcandidates : complete catalog .unlimited text (positionAt text (12 : Nat)) = [c] := by
    rw [complete, hcontext]
    simp only
    rw [nameCandidates, before_positionAt (by decide) (by decide), htag]
    cbv
  have hmem : c ∈ complete catalog .unlimited text (positionAt text (12 : Nat)) := by
    rw [hcandidates]
    exact List.mem_cons_self
  have hkind : c.kind = .attribute := by cbv
  have hvalues := (complete_after_attribute catalog .unlimited .unlimited (by decide) (by decide)
    htag (by decide) hmem hkind (by decide) (by decide)).1
  exact ⟨hcandidates, by cbv, by cbv, hvalues.trans (by cbv)⟩

end SvgAssist.Completion
