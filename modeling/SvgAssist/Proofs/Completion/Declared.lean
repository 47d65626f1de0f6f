import SvgAssist.Completion.Offer
import SvgAssist.Proofs.Text.Search
import Mathlib.Data.List.Basic

/-!
# Attributes that are given already

What a start tag gives is found by a space, the name and an equals sign. Where names hold neither of
the two, an attribute that is written behind a space gives its own name and no other
(`givesAttribute_append_given`), so that it takes just its candidates away
(`attributeCandidates_given`).
-/

namespace SvgAssist.Completion

open Grammar Text

/-! ## What a start tag gives -/

-- A given attribute is looked for with a blank in front and an equals sign behind.
theorem givesAttribute_iff {written name : Text} :
    givesAttribute written name = true ↔ Byte.space :: (name ++ [Byte.equals]) <:+: written :=
  holds_iff

/-- A name with neither a space nor an equals sign. In a start tag these are its two ends. -/
def Separable (name : Text) : Prop := Byte.space ∉ name ∧ Byte.equals ∉ name

theorem Separable.space_notMem_pattern {name : Text} (h : Separable name) :
    Byte.space ∉ name ++ [Byte.equals] := by
  rw [List.mem_append, List.mem_singleton]
  rintro (hmem | heq)
  · exact h.1 hmem
  · exact absurd heq (by decide)

-- Names without an equals sign are told apart by the first one that follows.
theorem Separable.eq_of_prefix {a b tail : Text} (ha : Separable a) (hb : Separable b)
    (h : a ++ [Byte.equals] <+: b ++ Byte.equals :: tail) : a = b := by
  obtain ⟨more, hmore⟩ := h
  have htake := congrArg (List.takeWhile (· ≠ Byte.equals)) hmore
  have hstop (name tail : Text) (hname : Separable name) :
      (name ++ Byte.equals :: tail).takeWhile (· ≠ Byte.equals) = name := by
    rw [List.takeWhile_append_of_pos, List.takeWhile_cons_of_neg (by decide), List.append_nil]
    intro c hc
    simpa using fun heq : c = Byte.equals => hname.2 (heq ▸ hc)
  rwa [List.append_assoc, List.singleton_append, hstop a more ha, hstop b tail hb] at htake

def given (name value : Text) : Text := name ++ (utf8 "=\"" ++ (value ++ utf8 "\" "))

-- Its last byte is its only space.
theorem exists_given_eq {name value : Text} (hname : Separable name) (hvalue : Byte.space ∉ value) :
    ∃ body, given name value = name ++ Byte.equals :: body ++ [Byte.space] ∧
      Byte.space ∉ name ++ Byte.equals :: body := by
  refine ⟨Byte.doubleQuote :: (value ++ [Byte.doubleQuote]), ?_, ?_⟩
  · have hopen : utf8 "=\"" = [Byte.equals, Byte.doubleQuote] := rfl
    have hclose : utf8 "\" " = [Byte.doubleQuote, Byte.space] := rfl
    rw [given, hopen, hclose]
    simp
  · have hequals : Byte.space ≠ Byte.equals := by decide
    have hquote : Byte.space ≠ Byte.doubleQuote := by decide
    simp [hname.1, hvalue, hequals, hquote]

/-- What is written behind a space gives its own name, and else what was given in front of it. -/
theorem givesAttribute_append_given {written name value other : Text}
    (hwritten : [Byte.space] <:+ written) (hname : Separable name) (hother : Separable other)
    (hvalue : Byte.space ∉ value) :
    givesAttribute (written ++ given name value) other =
      (givesAttribute written other || other == name) := by
  obtain ⟨front, rfl⟩ := hwritten
  obtain ⟨body, hgiven, hbody⟩ := exists_given_eq hname hvalue
  have hpattern := hother.space_notMem_pattern
  rw [Bool.eq_iff_iff, Bool.or_eq_true, beq_iff_eq, givesAttribute_iff, givesAttribute_iff,
    List.append_assoc, List.singleton_append, hgiven]
  constructor
  · intro hin
    rcases (infix_append_separator_iff hpattern).mp hin with hfront | hfirst | hbehind
    · exact .inl (hfront.trans (List.prefix_append front _).isInfix)
    · rw [List.append_assoc, List.cons_append] at hfirst
      exact .inr (hother.eq_of_prefix hname hfirst)
    -- Behind the name there is a space only at the end.
    · rcases (infix_append_separator_iff hpattern).mp hbehind with hinside | hlast | hlast
      · exact absurd (hinside.subset List.mem_cons_self) hbody
      · simp at hlast
      · simp at hlast
  · rintro (hold | rfl)
    · rcases (infix_append_separator_iff hpattern).mp hold with hfront | hnil | hnil
      · exact (infix_append_separator_iff hpattern).mpr (.inl hfront)
      · simp at hnil
      · simp at hnil
    · refine (infix_append_separator_iff hpattern).mpr (.inr (.inl ⟨body ++ [Byte.space], ?_⟩))
      simp

/-! ## Candidates -/

/-- Every attribute that the elements of a catalog have can be told apart in a start tag. -/
def SeparableNames (c : Catalog) : Prop :=
  ∀ e ∈ c.elements, ∀ entry ∈ e.entries, Separable entry.name

/-- In a start tag whose text ends in a space, giving an attribute that is proposed takes exactly
its own candidates away, if no name of the catalog holds a space or an equals sign and the value
holds no space. Whatever is written further, nothing is proposed that was not, and nothing in
another order. -/
theorem attributeCandidates_given (c : Catalog) (tag written : Text) :
    (SeparableNames c → [Byte.space] <:+ written →
      ∀ a ∈ attributeCandidates c tag written, ∀ value, Byte.space ∉ value →
        attributeCandidates c tag (written ++ (a.label ++ utf8 "=\"" ++ value ++ utf8 "\" ")) =
          (attributeCandidates c tag written).filter (·.label ≠ a.label)) ∧
    ∀ more, (attributeCandidates c tag (written ++ more)).Sublist
      (attributeCandidates c tag written) := by
  unfold attributeCandidates
  cases he : c.element? tag with
  | none => simp
  | some e =>
    simp only
    refine ⟨fun hnames hwritten a ha value hvalue => ?_, fun more => ?_⟩
    · have hentries := hnames e (List.mem_of_find?_eq_some he)
      obtain ⟨own, hown, rfl⟩ := List.mem_map.mp ha
      have hname := hentries own (List.mem_of_mem_filter hown)
      have htext : (attributeCandidate own.name (c.resolve tag own.name)).label ++ utf8 "=\"" ++
          value ++ utf8 "\" " = given own.name value := by
        simp only [given, List.append_assoc]
        rfl
      rw [htext, List.filter_map, List.filter_filter]
      refine congrArg _ (List.filter_congr fun entry hentry => ?_)
      rw [givesAttribute_append_given hwritten hname (hentries entry hentry) hvalue]
      by_cases hsame : entry.name = own.name <;> simp [attributeCandidate, hsame]
    · refine (List.monotone_filter_right _ fun entry hentry => ?_).map _
      rw [Bool.not_eq_true', ← Bool.not_eq_true, givesAttribute_iff] at hentry ⊢
      exact fun hold => hentry (hold.trans (List.prefix_append written more).isInfix)

/-- Neither a name that ends in the one that is given nor one that begins with it is taken away. -/
theorem attributeCandidates_given_x :
    let rect : Grammar.Element :=
      ⟨utf8 "rect", [], false, true, false, none,
        some [.ref (utf8 "dx"), .ref (utf8 "x"), .ref (utf8 "xx"), .ref (utf8 "y")]⟩
    let catalog : Catalog := ⟨[rect], []⟩
    let written := utf8 " y=\"1\" "
    let a := attributeCandidate (utf8 "x") none
    SeparableNames catalog ∧ [Byte.space] <:+ written ∧
      a ∈ attributeCandidates catalog (utf8 "rect") written ∧
      attributeCandidates catalog (utf8 "rect") (utf8 " y=\"1\" x=\"2\" ") =
        [attributeCandidate (utf8 "dx") none, attributeCandidate (utf8 "xx") none] := by
  intro rect catalog written a
  have hnames : SeparableNames catalog := by
    unfold SeparableNames Separable
    decide
  have hwritten : [Byte.space] <:+ written := by decide
  have hmem : a ∈ attributeCandidates catalog (utf8 "rect") written := by decide
  have hgiven := (attributeCandidates_given catalog (utf8 "rect") written).1 hnames hwritten a hmem
    (utf8 "2") (by decide)
  exact ⟨hnames, hwritten, hmem, hgiven.trans (by decide)⟩

end SvgAssist.Completion
