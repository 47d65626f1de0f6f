import SvgAssist.Proofs.Completion.Accept
import SvgAssist.Proofs.Completion.Candidates
import SvgAssist.Proofs.Completion.TagOpen
import SvgAssist.Proofs.Grammar.Catalog
import SvgAssist.Proofs.Markup.Edges
import SvgAssist.Proofs.Markup.Enclosing
import SvgAssist.Proofs.Markup.StartTag
import Mathlib

/-!
# Accepting an element

An element that is accepted behind a `<` is written as its kind asks for, and the cursor goes to
where the author continues: among the attributes of a simple element, and inside of any other
(`complete_after_element`).
-/

namespace SvgAssist.Completion

open Grammar Markup Text

/-! ## Candidates -/

theorem label_elementCandidate (name : Text) (e : Option Grammar.Element) :
    (elementCandidate name e).label = name := rfl

theorem text_elementCandidate (name : Text) (e : Option Grammar.Element) :
    (elementCandidate name e).text = (elementInsertion name e).1 := rfl

section

variable (name : Text) {e : Option Grammar.Element}

-- The cursor goes in front of the slash.
theorem elementInsertion_simple (hsimple : e.any (·.simple)) :
    elementInsertion name e = (name ++ utf8 " /", ⟨.left, 1, false⟩) := if_pos hsimple

-- The cursor goes in front of the end tag, which takes the name and three more characters.
theorem elementInsertion_inline (hsimple : ¬ e.any (·.simple)) (hinline : e.any (·.inline)) :
    elementInsertion name e =
      (name ++ utf8 "></" ++ name ++ utf8 ">", ⟨.left, name.length + 3, false⟩) :=
  (if_neg hsimple).trans (if_pos hinline)

-- The cursor goes up into the empty line. The end tag leaves its `>` to the one that is there.
theorem elementInsertion_block (hsimple : ¬ e.any (·.simple)) (hinline : ¬ e.any (·.inline)) :
    elementInsertion name e = (name ++ utf8 ">\n\t\n</" ++ name, ⟨.up, 1, false⟩) :=
  (if_neg hsimple).trans (if_neg hinline)

end

-- But for the root element, what is proposed behind a `<` is the element that the catalog defines.
theorem eq_elementCandidate_of_mem {elements : List (Option Grammar.Element)}
    {attributes : List (Text × Option Grammar.Attribute)} {budget : Budget} {text : Text}
    {pos : Position} {c : Candidate}
    (h : c ∈ tagCandidates (.ofDefinitions elements attributes) budget text pos)
    (hedit : c.edit = none) :
    c = elementCandidate c.label
      ((Catalog.ofDefinitions elements attributes).element? c.label) := by
  rcases mem_tagCandidates h with ⟨-, rfl⟩ | ⟨parent, h⟩
  · exact absurd hedit (by simp [rootCandidate])
  · unfold elementCandidates at h
    split at h
    · obtain ⟨name, -, rfl⟩ := List.mem_map.mp h
      rfl
    · obtain ⟨e, he, rfl⟩ := List.mem_map.mp h
      rw [label_elementCandidate, Catalog.element?_of_mem he]

/-! ## Behind the candidate -/

-- Behind a start tag that the scan comes to, its element is the innermost that is open, as long as
-- nothing else is reported.
theorem parentElement_behind_tag (name : TagName) (attributes : Attributes) {front inside : Text}
    (hscan : scansThrough (front ++ [Byte.less]))
    (hinside : ∀ offset, eventsFrom offset inside = []) :
    parentElement .unlimited (front ++ (Node.opener name attributes ++ inside)) =
      .ok (some name.bytes) := by
  have hevents (offset : Nat) : eventsFrom offset (Node.opener name attributes ++ inside) =
      [⟨.opened, name.bytes, offset, offset + (Node.opener name attributes).length⟩] := by
    rw [eventsFrom_of_found rfl (construct_opener name attributes inside), hinside]
  rw [parentElement_unlimited]
  have happend := eventsFrom_append_of_scansThrough hscan 0
    (name.bytes ++ (attributes.render ++ utf8 ">") ++ inside)
  have htag : Byte.less :: (name.bytes ++ (attributes.render ++ utf8 ">") ++ inside) =
      Node.opener name attributes ++ inside := rfl
  rw [htag, hevents] at happend
  rw [happend, List.foldl_append]
  rfl

-- A start tag that is written behind a `<` has the cursor inside of its element.
theorem parentElement_behind_opener (name : TagName) {front inside : Text}
    (hscan : scansThrough (front ++ [Byte.less])) (hinside : Byte.less ∉ inside) :
    parentElement .unlimited (front ++ Byte.less :: (name.bytes ++ Byte.greater :: inside)) =
      .ok (some name.bytes) := by
  have hopener : Byte.less :: (name.bytes ++ Byte.greater :: inside) =
      Node.opener name ⟨[], ⟨[], List.forall_mem_nil _⟩⟩ ++ inside := by
    simp only [Node.opener, Attributes.render, List.flatMap_nil, List.nil_append,
      List.cons_append, List.append_assoc]
    rfl
  rw [hopener]
  apply parentElement_behind_tag name _ hscan
  intro offset
  have htext : eventsFrom offset (inside ++ []) = eventsFrom (offset + inside.length) [] :=
    eventsFrom_text hinside offset
  rwa [List.append_nil, eventsFrom] at htext

-- In front of a slash or at the end of the line, an attribute can follow the blank.
theorem classifyAt_behind_space {text : Text} {pos : Position}
    (hbefore : charBefore text pos = utf8 " ")
    (hafter : charAfter text pos = [] ∨ charAfter text pos = utf8 "/") :
    classifyAt text pos = .attributeName := by
  have hends : endsAttributes (charAfter text pos) = true := by
    rcases hafter with h | h <;> rw [h] <;> decide
  have hless : utf8 " " ≠ utf8 "<" := by decide
  rw [classifyAt, hbefore, classify, if_neg hless, if_pos (by simp [hends])]

section

variable (name : TagName) {e : Option Grammar.Element} {text front : Text} {o : Nat}

/-- A simple element has the cursor where its attributes are written. -/
theorem accept_simple (ho : o ≤ text.length) (htake : text.take o = front ++ [Byte.less])
    (hsimple : e.any (·.simple)) :
    let c := elementCandidate name.bytes e
    Between (c.accept text o) (c.cursor text o) (text.take o ++ (name.bytes ++ utf8 " "))
        (utf8 "/" ++ text.drop o) ∧
      ∀ catalog budget, complete catalog budget (c.accept text o) (c.cursor text o) =
        attributeCandidates catalog name.bytes (utf8 " ") := by
  intro c
  have hinsertion := elementInsertion_simple name.bytes hsimple
  have htext : c.text = (name.bytes ++ utf8 " ") ++ utf8 "/" := by
    rw [text_elementCandidate, hinsertion, List.append_assoc]
    rfl
  have hcommand : c.command = ⟨.left, 1, false⟩ := congrArg Prod.snd hinsertion
  have hbetween := between_left ho htext (by rw [hcommand]) (by rw [hcommand]; rfl) (by decide)
    (by decide)
  refine ⟨hbetween, fun catalog budget => ?_⟩
  have hspace : Between (c.accept text o) (c.cursor text o)
      (text.take o ++ name.bytes ++ [Byte.space]) (Byte.slash :: text.drop o) := by
    rw [List.append_assoc]
    exact hbetween
  have hcontext := classifyAt_behind_space
    (hspace.charBefore_eq (by decide) (by decide) (by decide))
    (hspace.charAfter_eq (by decide) (by decide))
  have htag : enclosingTag (text.take o ++ name.bytes ++ [Byte.space]) =
      some ⟨name.bytes, utf8 " "⟩ := by
    have hspaceFree : BracketFree (utf8 " ") := by decide
    refine enclosingTag_eq_some_iff.mpr ⟨front, ?_, ?_, ?_, name.ne_nil⟩
    · rw [htake, List.append_assoc, List.append_assoc]
      rfl
    · exact (bracketFree_of_isNameByte fun b => name.isNameByte_of_mem).append hspaceFree
    · exact name.takeName_append (by rintro b ⟨⟩; decide)
  rw [complete, hcontext]
  simp only
  rw [nameCandidates, hspace.before_eq (by decide), htag]

/-- An inline element has the cursor between its tags. -/
theorem accept_inline (ho : o ≤ text.length) (htake : text.take o = front ++ [Byte.less])
    (hscan : scansThrough (text.take o)) (hsimple : ¬ e.any (·.simple))
    (hinline : e.any (·.inline)) :
    let c := elementCandidate name.bytes e
    Between (c.accept text o) (c.cursor text o) (text.take o ++ (name.bytes ++ utf8 ">"))
        (utf8 "</" ++ name.bytes ++ utf8 ">" ++ text.drop o) ∧
      parentElement .unlimited (before (c.accept text o) (c.cursor text o)) =
        .ok (some name.bytes) := by
  intro c
  have hinsertion := elementInsertion_inline name.bytes hsimple hinline
  have htext : c.text = (name.bytes ++ utf8 ">") ++ (utf8 "</" ++ name.bytes ++ utf8 ">") := by
    rw [text_elementCandidate, hinsertion]
    simp only [List.append_assoc]
    rfl
  have hcommand : c.command = ⟨.left, name.bytes.length + 3, false⟩ := congrArg Prod.snd hinsertion
  have hcount : c.command.offset = (utf8 "</" ++ name.bytes ++ utf8 ">").length := by
    have hopen : (utf8 "</").length = 2 := rfl
    have hclose : (utf8 ">").length = 1 := rfl
    rw [hcommand, List.length_append, List.length_append, hopen, hclose]
    simp only
    omega
  have hplain : Plain (utf8 "</" ++ name.bytes ++ utf8 ">") :=
    (Plain.append (by decide) name.plain).append (by decide)
  have hbetween := between_left ho htext (by rw [hcommand]) hcount
    (List.append_ne_nil_of_right_ne_nil _ (by decide)) hplain
  refine ⟨hbetween, ?_⟩
  have hinside : Between (c.accept text o) (c.cursor text o)
      (text.take o ++ name.bytes ++ [Byte.greater])
      (utf8 "</" ++ name.bytes ++ utf8 ">" ++ text.drop o) := by
    rw [List.append_assoc (text.take o)]
    exact hbetween
  have hopened := parentElement_behind_opener name (htake ▸ hscan) (List.not_mem_nil)
  rw [hinside.before_eq (by decide), htake]
  simpa using hopened

-- The cursor of any other element goes up to the line that begins behind the start tag.
theorem line_cursor_block (ho : o ≤ text.length) (hsimple : ¬ e.any (·.simple))
    (hinline : ¬ e.any (·.inline)) :
    let c := elementCandidate name.bytes e
    c.text = name.bytes ++ utf8 ">\n\t\n</" ++ name.bytes ∧
      (c.cursor text o).line + 1 = (positionAt (c.accept text o) (o + c.text.length : Nat)).line ∧
      (c.cursor text o).line =
        ((text.take o ++ (name.bytes ++ utf8 ">\n")).count Byte.newline : Nat) := by
  intro c
  have hinsertion := elementInsertion_block name.bytes hsimple hinline
  have htext : c.text = name.bytes ++ utf8 ">\n\t\n</" ++ name.bytes :=
    congrArg Prod.fst hinsertion
  have hcommand : c.command = ⟨.up, 1, false⟩ := congrArg Prod.snd hinsertion
  have hline : (c.cursor text o).line =
      (positionAt (c.accept text o) (o + c.text.length : Nat)).line - 1 := by
    rw [Candidate.cursor, Command.move, hcommand]
  have hname : name.bytes.count Byte.newline = 0 :=
    List.count_eq_zero.mpr name.plain.newline_notMem
  have hbreaks : (utf8 ">\n\t\n</").count Byte.newline = 2 := rfl
  have hbreak : (utf8 ">\n").count Byte.newline = 1 := rfl
  refine ⟨htext, by rw [hline]; omega, ?_⟩
  rw [hline, positionAt_natCast, take_accept c ho, htext]
  simp only [List.count_append, hname, hbreaks, hbreak]
  omega

/-- Any other element has the cursor on the line between its tags. -/
theorem accept_block (ho : o ≤ text.length) (htake : text.take o = front ++ [Byte.less])
    (hscan : scansThrough (text.take o)) (hsimple : ¬ e.any (·.simple))
    (hinline : ¬ e.any (·.inline)) :
    let c := elementCandidate name.bytes e
    (c.cursor text o).line + 1 = (positionAt (c.accept text o) (o + c.text.length : Nat)).line ∧
      ∀ column, parentElement .unlimited
        (before (c.accept text o) ⟨(c.cursor text o).line, column⟩) = .ok (some name.bytes) := by
  intro c
  obtain ⟨htext, hup, hline⟩ := line_cursor_block name ho hsimple hinline
  refine ⟨hup, fun column => ?_⟩
  -- The text up to the start of the line, and what stands on it.
  set above := text.take o ++ (name.bytes ++ utf8 ">\n") with habove
  set below := utf8 "\t\n</" ++ (name.bytes ++ text.drop o) with hbelow
  have haccept : c.accept text o = above ++ below := by
    rw [Candidate.accept, htext, habove, hbelow]
    simp only [List.append_assoc]
    rfl
  have hends : EndsLine above := by
    refine .inr ⟨text.take o ++ (name.bytes ++ utf8 ">"), ?_⟩
    rw [habove, List.append_assoc, List.append_assoc]
    rfl
  have hwithout : withoutReturn (below.takeWhile (· ≠ Byte.newline)) = utf8 "\t" := rfl
  have hfree : Byte.less ∉ Byte.newline :: (utf8 "\t").take column.toNat := by
    intro hmem
    rcases List.mem_cons.mp hmem with h | h
    · exact absurd h (by decide)
    · exact absurd (List.mem_of_mem_take h) (by decide)
  have hopened := parentElement_behind_opener name (htake ▸ hscan) hfree
  have hshape : front ++ Byte.less ::
      (name.bytes ++ Byte.greater :: Byte.newline :: (utf8 "\t").take column.toNat) =
        above ++ (utf8 "\t").take column.toNat := by
    rw [habove, htake]
    simp only [List.append_assoc]
    rfl
  rw [haccept, hline, before_count hends, hwithout, ← hshape]
  exact hopened

end

/-- An element that is accepted behind a `<` that the scan comes to has the cursor where the author
goes on: a simple element between its name and its slash, where all of its attributes are proposed,
an inline element between its tags, and any other on the line between its tags, which are inside of
the element. -/
theorem complete_after_element (elements : List (Option Grammar.Element))
    (attributes : List (Text × Option Grammar.Attribute)) (budget : Budget) {text : Text} {i : Nat}
    {c : Candidate} (hless : text[i]? = some Byte.less) (hscan : scansThrough (text.take (i + 1)))
    (hc : c ∈ complete (.ofDefinitions elements attributes) budget text
      (positionAt text (i + 1 : Nat)))
    (hedit : c.edit = none) (hname : takeName c.label = c.label) (hne : c.label ≠ []) :
    let catalog := Catalog.ofDefinitions elements attributes
    let e := catalog.element? c.label
    let edited := c.accept text (i + 1)
    let cursor := c.cursor text (i + 1)
    (e.any (·.simple) →
      Between edited cursor (text.take (i + 1) ++ (c.label ++ utf8 " "))
          (utf8 "/" ++ text.drop (i + 1)) ∧
        ∀ later, complete catalog later edited cursor =
          attributeCandidates catalog c.label (utf8 " ")) ∧
    (¬ e.any (·.simple) → e.any (·.inline) →
      Between edited cursor (text.take (i + 1) ++ (c.label ++ utf8 ">"))
          (utf8 "</" ++ c.label ++ utf8 ">" ++ text.drop (i + 1)) ∧
        parentElement .unlimited (before edited cursor) = .ok (some c.label)) ∧
    (¬ e.any (·.simple) → ¬ e.any (·.inline) →
      cursor.line + 1 = (positionAt edited (i + 1 + c.text.length : Nat)).line ∧
        ∀ column, parentElement .unlimited (before edited ⟨cursor.line, column⟩) =
          .ok (some c.label)) := by
  intro catalog e edited cursor
  have hlen : i + 1 ≤ text.length := (List.getElem?_eq_some_iff.mp hless).1
  have htake := take_add_one_of_getElem? hless
  rw [complete, classifyAt_behind_less hless] at hc
  have hcandidate : c = elementCandidate c.label e := eq_elementCandidate_of_mem hc hedit
  let name : TagName := ⟨c.label, hname, hne⟩
  refine ⟨fun hsimple => ?_, fun hsimple hinline => ?_, fun hsimple hinline => ?_⟩
  · have haccept := accept_simple name hlen htake hsimple
    rw [← hcandidate] at haccept
    exact ⟨haccept.1, haccept.2 catalog⟩
  · have haccept := accept_inline name hlen htake hscan hsimple hinline
    rwa [← hcandidate] at haccept
  · have haccept := accept_block name hlen htake hscan hsimple hinline
    rwa [← hcandidate] at haccept

theorem complete_after_element_circle_text :
    let circle : Grammar.Element :=
      ⟨utf8 "circle", [], false, true, false, none, some [.ref (utf8 "r")]⟩
    let label : Grammar.Element := ⟨utf8 "text", [], false, false, true, none, none⟩
    let catalog := Catalog.ofDefinitions [some circle, some label] []
    let text := utf8 "<svg><>"
    let simple := elementCandidate (utf8 "circle") (some circle)
    let inline := elementCandidate (utf8 "text") (some label)
    scansThrough (text.take 6) ∧
      complete catalog .unlimited text (positionAt text (6 : Nat)) = [simple, inline] ∧
      simple.accept text 6 = utf8 "<svg><circle />" ∧
      complete catalog .unlimited (simple.accept text 6) (simple.cursor text 6) =
        [attributeCandidate (utf8 "r") none] ∧
      inline.accept text 6 = utf8 "<svg><text></text>>" ∧
      parentElement .unlimited (before (inline.accept text 6) (inline.cursor text 6)) =
        .ok (some (utf8 "text")) := by
  intro circle label catalog text simple inline
  have hless : text[5]? = some Byte.less := by decide
  have hscan : scansThrough (text.take 6) := by cbv
  have hparent : parentElement .unlimited (text.take 6) = .ok (some (utf8 "svg")) := by cbv
  have htag : precedingTag (text.take 6) = some (utf8 "svg") := by decide
  have hcandidates : complete catalog .unlimited text (positionAt text (5 + 1 : Nat)) =
      [simple, inline] := by
    rw [complete, classifyAt_behind_less hless]
    simp only [tagCandidates, before_behind_less hless, hparent, htag]
    rfl
  have hsimple : simple ∈ complete catalog .unlimited text (positionAt text (5 + 1 : Nat)) := by
    rw [hcandidates]
    exact List.mem_cons_self
  have hinline : inline ∈ complete catalog .unlimited text (positionAt text (5 + 1 : Nat)) := by
    rw [hcandidates]
    exact List.mem_cons_of_mem _ List.mem_cons_self
  have hattributes := ((complete_after_element _ _ _ hless hscan hsimple rfl (by decide)
    (by decide)).1 (by decide)).2 .unlimited
  have hparent := ((complete_after_element _ _ _ hless hscan hinline rfl (by decide)
    (by decide)).2.1 (by decide) (by decide)).2
  exact ⟨hscan, hcandidates, rfl, hattributes.trans rfl, rfl, hparent⟩

end SvgAssist.Completion
