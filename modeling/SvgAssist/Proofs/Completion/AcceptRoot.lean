import SvgAssist.Proofs.Completion.AcceptElement
import SvgAssist.Proofs.Completion.RootElement
import SvgAssist.Proofs.Markup.Value

/-!
# Accepting the root element

The root element is put in with its text as an edit, while the command of its candidate is the one
for the text that any element of its kind would have. The cursor comes to the inside of the element
all the same, but it stands between the tags only if the catalog does not say that the element is
simple (`root_cursor_between_iff`).
-/

namespace SvgAssist.Completion

open Grammar Markup Text

/-! ## Edits and cursors -/

def Edit.apply (edit : Edit) (text : Text) : Text :=
  text.take (offset text edit.range.start) ++ (edit.text ++ text.drop (offset text edit.range.stop))

def Edit.behind (edit : Edit) (text : Text) : Nat := offset text edit.range.start + edit.text.length

section

variable {text : Text} {pos : Position} {o : Nat} (ho : offset text pos = o) (inserted : Text)
include ho

-- An edit of an empty range takes nothing away.
theorem Edit.apply_insert : (Edit.mk ⟨pos, pos⟩ inserted).apply text =
    text.take o ++ (inserted ++ text.drop o) := by
  simp only [Edit.apply, ho]

theorem Edit.behind_insert : (Edit.mk ⟨pos, pos⟩ inserted).behind text = o + inserted.length := by
  simp only [Edit.behind, ho]

end

/-- A place to which a command may lead a cursor from an offset. To the left it goes over
characters, and where it comes to the start of the line, it goes on or stays there. Up it may come
to any column. -/
inductive Command.Leads (command : Command) (text : Text) (o : Nat) : Position → Prop
  | back (hmove : command.movement = .left) :
      Leads command text o (positionAt text (widthBefore (text.take o) command.offset.toNat))
  | within (hmove : command.movement = .left) :
      Leads command text o (command.move text (positionAt text o))
  | up (hmove : command.movement = .up) (column : Int) :
      Leads command text o ⟨(positionAt text o).line - command.offset, column⟩

/-! ## The text of the root element -/

def rootOpening : Text := utf8 "svg xmlns=\"http://www.w3.org/2000/svg\">"

def rootClosing : Text := utf8 "</svg"

def rootBody : Text := utf8 "\n\t\n"

def rootInside : Text := rootBody ++ rootClosing

theorem ascii_rootInside : ∀ b ∈ rootInside, b < 0x80 := by decide +kernel

-- The end tag begins a line.
theorem endsLine_body (front : Text) : EndsLine (front ++ rootBody) := by
  refine .inr ⟨front ++ utf8 "\n\t", ?_⟩
  rw [List.append_assoc]
  rfl

-- The skeleton is the text behind the `<`, cut where its start tag ends.
theorem rootSkeleton_eq : rootSkeleton = rootOpening ++ rootInside := rfl

/-- A cursor behind the start tag and in front of the end tag of a root element that was put in at
an offset. -/
def BetweenRootTags (text : Text) (o : Nat) (cursor : Position) : Prop :=
  o + rootOpening.length ≤ offset text cursor ∧
    offset text cursor + rootClosing.length ≤ o + rootSkeleton.length

-- The cursor is between the tags if no more than what stands there is in front of it.
theorem betweenRootTags_iff {text front : Text} {o k : Nat} {cursor : Position}
    (hfront : front.length = o + rootOpening.length) (hk : k ≤ 8)
    (hbefore : before text cursor = front ++ rootInside.take k) :
    BetweenRootTags text o cursor ↔ k ≤ 3 := by
  have hinside : rootInside.length = 8 := rfl
  have hclosing : rootClosing.length = 5 := rfl
  have hskeleton : rootSkeleton.length = rootOpening.length + 8 := rfl
  have hcursor := congrArg List.length hbefore
  rw [before_eq_take, List.length_take, Nat.min_eq_left (offset_le_length text cursor),
    List.length_append, List.length_take] at hcursor
  unfold BetweenRootTags
  omega

section

variable {text front : Text} (h : front ++ rootInside <+: text)
include h

-- Eight bytes are all that stands behind the start tag, without the `>` that ends the root element.
theorem take_inside {k : Nat} (hk : k ≤ 8) :
    text.take (front.length + k) = front ++ rootInside.take k := by
  obtain ⟨behind, rfl⟩ := h
  rw [List.append_assoc, List.take_length_add_append, List.take_append_of_le_length hk]

-- What stands before a place of the text behind the start tag.
theorem before_inside {k : Nat} (hpos : 0 < k) (hk : k ≤ 8) :
    before text (positionAt text (front.length + k : Nat)) = front ++ rootInside.take k := by
  have htake := take_inside h hk
  have hlen : (rootInside.take k).length = k := by
    rw [List.length_take]
    exact Nat.min_eq_left hk
  rw [before_positionAt, htake]
  · have hle := congrArg List.length htake
    rw [List.length_take, List.length_append, hlen] at hle
    omega
  -- No carriage return stands there.
  · rintro ⟨hsuffix, -⟩
    have hne : rootInside.take k ≠ [] := by
      apply List.ne_nil_of_length_pos
      omega
    rw [htake, ← List.dropLast_concat_getLast hne, ← List.append_assoc,
      List.singleton_suffix_append_singleton_iff] at hsuffix
    have hmem : Byte.carriageReturn ∈ rootInside :=
      List.mem_of_mem_take (hsuffix ▸ List.getLast_mem hne)
    exact absurd hmem (by decide)

-- Behind the body stands a new line, on which the columns count from its end tag.
theorem positionAt_closing {m : Nat} (hm : m ≤ 5) :
    positionAt text (front.length + (3 + m) : Nat) =
      ⟨(front ++ rootBody).count Byte.newline, m⟩ := by
  have hlen : (rootClosing.take m).length = m := by
    rw [List.length_take]
    exact Nat.min_eq_left hm
  have htake : text.take (front.length + (3 + m)) = (front ++ rootBody) ++ rootClosing.take m := by
    have hthree : rootBody.length = 3 := rfl
    have hinside : rootInside.take (3 + m) = rootBody ++ rootClosing.take m := by
      rw [rootInside, ← hthree, List.take_length_add_append]
    rw [take_inside h (by omega), hinside, List.append_assoc]
  have hfree : Byte.newline ∉ rootClosing.take m := by
    intro hmem
    exact absurd (List.mem_of_mem_take hmem) (by decide)
  rw [positionAt_of_take (endsLine_body front) htake hfree, hlen]

-- What stands on the line of the end tag up to its end.
theorem take_line_closing :
    (line text ((front ++ rootBody).count Byte.newline : Nat)).take 5 = rootClosing := by
  have hbefore := before_inside h (show 0 < 3 + 5 by decide) (le_refl 8)
  have hall : front ++ rootInside.take (3 + 5) = (front ++ rootBody) ++ rootClosing := by
    rw [List.append_assoc]
    rfl
  rw [positionAt_closing h (le_refl 5), hall] at hbefore
  obtain ⟨behind, rfl⟩ := h
  have hsplit : front ++ rootInside ++ behind = (front ++ rootBody) ++ (rootClosing ++ behind) := by
    simp only [rootInside, List.append_assoc]
  rw [hsplit, before_count (endsLine_body front)] at hbefore
  rw [hsplit, line_count (endsLine_body front)]
  exact List.append_cancel_left hbefore

/-! ## Where the cursor goes -/

-- Going back over `n` characters, the cursor leaves the others behind the start tag in front of it.
theorem before_back {n : Nat} (hn : n < 8) :
    before text (positionAt text (widthBefore (text.take (front.length + 8)) n)) =
      front ++ rootInside.take (8 - n) := by
  have hwidth := widthBefore_of_ascii front ascii_rootInside hn.le
  have htake : text.take (front.length + 8) = front ++ rootInside := take_inside h (le_refl 8)
  rw [htake, hwidth]
  exact before_inside h (Nat.sub_pos_of_lt hn) (Nat.sub_le 8 n)

-- Along its line the cursor has only the end tag to go back over.
theorem before_within {command : Command} (hmove : command.movement = .left) :
    before text (command.move text (positionAt text (front.length + 8 : Nat))) =
      front ++ rootInside.take (3 + (5 - command.offset.toNat)) := by
  have hascii : ∀ b ∈ rootClosing, b < 0x80 := fun b hb =>
    ascii_rootInside b (List.mem_append_right rootBody hb)
  have hwidth : widthBefore rootClosing command.offset.toNat = 5 - command.offset.toNat := by
    rcases Nat.le_total command.offset.toNat 5 with hle | hle
    · have hpart := widthBefore_of_ascii [] hascii hle
      rwa [List.nil_append, List.length_nil, Nat.zero_add] at hpart
    · rw [widthBefore_eq_zero hascii hle, Nat.sub_eq_zero_of_le hle]
  rw [positionAt_closing h (le_refl 5), move_of_left hmove]
  simp only [Int.toNat_natCast, take_line_closing h]
  rw [hwidth, ← positionAt_closing h (Nat.sub_le 5 _)]
  exact before_inside h (by omega) (by omega)

-- One line up there is nothing but the tab.
theorem before_up (column : Int) :
    ∃ k, 0 < k ∧ k ≤ 2 ∧
      before text ⟨(positionAt text (front.length + 8 : Nat)).line - 1, column⟩ =
        front ++ rootInside.take k := by
  have hends : EndsLine (front ++ utf8 "\n") := .inr ⟨front, rfl⟩
  have hline : (positionAt text (front.length + 8 : Nat)).line - 1 =
      ((front ++ utf8 "\n").count Byte.newline : Nat) := by
    have htwo : rootBody.count Byte.newline = 2 := rfl
    have hone : (utf8 "\n").count Byte.newline = 1 := rfl
    rw [positionAt_closing h (le_refl 5), List.count_append, List.count_append, htwo, hone]
    simp only
    omega
  obtain ⟨behind, rfl⟩ := h
  have hsplit : front ++ rootInside ++ behind =
      (front ++ utf8 "\n") ++ (utf8 "\t\n</svg" ++ behind) := by
    rw [List.append_assoc, List.append_assoc]
    rfl
  have hwithout : withoutReturn ((utf8 "\t\n</svg" ++ behind).takeWhile (· ≠ Byte.newline)) =
      utf8 "\t" := rfl
  rw [hline, hsplit, before_count hends, hwithout, List.append_assoc]
  cases column.toNat with
  | zero => exact ⟨1, by decide, by decide, rfl⟩
  | succ n =>
    have htab : (utf8 "\t").take (n + 1) = utf8 "\t" := List.take_of_length_le (Nat.le_add_left 1 n)
    rw [htab]
    exact ⟨2, by decide, by decide, rfl⟩

-- Only behind the insertion of a simple element the cursor goes back into the end tag.
theorem before_leads {e : Option Grammar.Element} {cursor : Position}
    (hleads : (elementInsertion rootName e).2.Leads text (front.length + 8) cursor) :
    ∃ k, 0 < k ∧ k ≤ 8 ∧ before text cursor = front ++ rootInside.take k ∧
      (k ≤ 3 ↔ ¬ e.any (·.simple)) := by
  by_cases hsimple : e.any (·.simple)
  · rw [elementInsertion_simple rootName hsimple] at hleads
    refine ⟨7, by decide, by decide, ?_, by simp [hsimple]⟩
    cases hleads with
    | back => exact before_back h (by decide)
    | within => exact before_within h rfl
    | up hmove => exact absurd hmove (by decide)
  by_cases hinline : e.any (·.inline)
  · rw [elementInsertion_inline rootName hsimple hinline] at hleads
    cases hleads with
    | back => exact ⟨2, by decide, by decide, before_back h (by decide), by simp [hsimple]⟩
    | within => exact ⟨3, by decide, by decide, before_within h rfl, by simp [hsimple]⟩
    | up hmove => exact absurd hmove (by decide)
  · rw [elementInsertion_block rootName hsimple hinline] at hleads
    cases hleads with
    | back hmove => exact absurd hmove (by decide)
    | within hmove => exact absurd hmove (by decide)
    | up _ column =>
      obtain ⟨k, hpos, hk, hbefore⟩ := before_up h column
      have hthree : k ≤ 3 := by omega
      exact ⟨k, hpos, by omega, hbefore, by simp [hsimple, hthree]⟩

end

-- However a command moves, there is at least one place where it may leave the cursor.
theorem exists_leads (name : Text) (e : Option Grammar.Element) (text : Text) (o : Nat) :
    ∃ cursor, (elementInsertion name e).2.Leads text o cursor := by
  unfold elementInsertion
  split_ifs
  · exact ⟨_, .within rfl⟩
  · exact ⟨_, .within rfl⟩
  · exact ⟨_, .up rfl 0⟩

/-! ## Inside of the root element -/

def svgName : TagName := ⟨rootName, rfl, by decide⟩

def svgNamespace : Markup.Attribute where
  space := .single
  name := utf8 "xmlns"
  beforeEquals := .empty
  afterEquals := .empty
  quote := Byte.doubleQuote
  value := utf8 "http://www.w3.org/2000/svg"
  space_ne_nil := by decide
  name_ne_nil := by decide
  isName := by decide +kernel
  isQuote := .inl rfl
  quote_notMem := by decide +kernel

theorem opener_svg :
    Node.opener svgName ⟨[svgNamespace], .empty⟩ = Byte.less :: rootOpening := rfl

-- The end tag has no `>` yet, so nothing is reported of it.
theorem eventsFrom_rootInside (offset : Nat) : eventsFrom offset rootInside = [] := by
  have hbody : Byte.less ∉ rootBody := by decide
  have hclosing : piece Byte.less (utf8 "/svg") = .unterminated := by decide
  rw [rootInside, eventsFrom_text hbody]
  exact eventsFrom_of_unterminated hclosing _

-- Wherever behind its start tag the text is cut, only the root element is open there.
theorem parentElement_inside {front : Text} (hscan : scansThrough (front ++ [Byte.less]))
    (k : Nat) :
    parentElement .unlimited (front ++ [Byte.less] ++ rootOpening ++ rootInside.take k) =
      .ok (some rootName) := by
  have hinside (offset : Nat) : eventsFrom offset (rootInside.take k) = [] := by
    rw [eventsFrom_take, eventsFrom_rootInside]
    rfl
  have hparent := parentElement_behind_tag svgName ⟨[svgNamespace], .empty⟩ hscan hinside
  rw [opener_svg, svgName] at hparent
  simpa using hparent

/-- Wherever the command of the root element leads, the cursor is inside of the element that was put
in. It is between the tags of it exactly if the catalog does not say that the element is simple. -/
theorem root_cursor_between_iff {catalog : Catalog} {budget : Budget} {text : Text} {i : Nat}
    {c : Candidate} {edit : Edit} (hless : text[i]? = some Byte.less)
    (hc : c ∈ complete catalog budget text (positionAt text (i + 1 : Nat)))
    (hedit : c.edit = some edit) :
    let edited := edit.apply text
    edited = text.take (i + 1) ++ (rootSkeleton ++ text.drop (i + 1)) ∧
      edit.behind text = i + 1 + rootSkeleton.length ∧
      (∃ cursor, c.command.Leads edited (edit.behind text) cursor) ∧
      ∀ cursor, c.command.Leads edited (edit.behind text) cursor →
        parentElement .unlimited (before edited cursor) = .ok (some rootName) ∧
          (BetweenRootTags edited (i + 1) cursor ↔
            ¬ (catalog.element? rootName).any (·.simple)) := by
  intro edited
  obtain ⟨rfl, htagless⟩ := eq_rootCandidate_of_mem hc (by simp [hedit])
  have hlen : i + 1 ≤ text.length := (List.getElem?_eq_some_iff.mp hless).1
  have htake := take_add_one_of_getElem? hless
  have hoffset : offset text (positionAt text (i + 1 : Nat)) = i + 1 :=
    offset_positionAt hlen (not_afterReturn_of_getElem? hless (by decide))
  obtain rfl := Option.some.inj hedit
  have hedited : edited = text.take (i + 1) ++ (rootSkeleton ++ text.drop (i + 1)) :=
    Edit.apply_insert hoffset rootSkeleton
  have hbehind := Edit.behind_insert hoffset rootSkeleton
  refine ⟨hedited, hbehind, exists_leads _ _ _ _, fun cursor hleads => ?_⟩
  -- The text up to the end of the start tag, behind which the cursor comes.
  obtain ⟨front, hfront⟩ : ∃ front, front = text.take (i + 1) ++ rootOpening := ⟨_, rfl⟩
  have hlength : front.length = i + 1 + rootOpening.length := by
    rw [hfront, List.length_append, List.length_take, Nat.min_eq_left hlen]
  have hprefix : front ++ rootInside <+: edited := by
    refine ⟨text.drop (i + 1), ?_⟩
    rw [hedited, hfront, rootSkeleton_eq]
    simp only [List.append_assoc]
  have hstop : i + 1 + rootSkeleton.length = front.length + 8 := by
    rw [hlength]
    rfl
  rw [hbehind, hstop] at hleads
  obtain ⟨k, hpos, hk, hbefore, hthree⟩ := before_leads hprefix hleads
  refine ⟨?_, (betweenRootTags_iff hlength hk hbefore).trans hthree⟩
  have hscan : scansThrough (text.take i ++ [Byte.less]) := by
    rw [before_behind_less hless, htake] at htagless
    exact htagless.scan.1
  rw [hbefore, hfront, htake]
  exact parentElement_inside hscan k

theorem root_cursor_between_undefined :
    let catalog : Catalog := ⟨[], []⟩
    let text := utf8 "1 < 2 <"
    let root := rootCandidate catalog (positionAt text (7 : Nat))
    let edited := utf8 "1 < 2 <svg xmlns=\"http://www.w3.org/2000/svg\">\n\t\n</svg"
    root ∈ complete catalog .unlimited text (positionAt text (7 : Nat)) ∧
      root.command.Leads edited 54 ⟨1, 1⟩ ∧
      parentElement .unlimited (before edited ⟨1, 1⟩) = .ok (some rootName) ∧
      BetweenRootTags edited 7 ⟨1, 1⟩ := by
  intro catalog text root edited
  have hless : text[6]? = some Byte.less := by decide
  have htagless : Tagless (text.take 7) := precedingTag_eq_none_iff.mp (by decide)
  have hroot : root ∈ complete catalog .unlimited text (positionAt text (6 + 1 : Nat)) :=
    rootCandidate_mem_complete hless htagless
  obtain ⟨hedited, hbehind, -, hcursor⟩ := root_cursor_between_iff hless hroot rfl
  have hleads : root.command.Leads edited 54 ⟨1, 1⟩ := .up rfl 1
  rw [hedited, hbehind] at hcursor
  obtain ⟨hparent, hbetween⟩ := hcursor ⟨1, 1⟩ hleads
  exact ⟨hroot, hleads, hparent, hbetween.mpr (by decide)⟩

/-- Of a simple root element the cursor comes into the end tag. -/
theorem root_cursor_in_end_tag :
    let catalog : Catalog := ⟨[⟨rootName, [], false, true, false, none, none⟩], []⟩
    let text := utf8 "<"
    let root := rootCandidate catalog (positionAt text (1 : Nat))
    let edited := utf8 "<svg xmlns=\"http://www.w3.org/2000/svg\">\n\t\n</svg"
    root ∈ complete catalog .unlimited text (positionAt text (1 : Nat)) ∧
      (∃ edit, root.edit = some edit ∧ edit.apply text = edited ∧ edit.behind text = 48) ∧
      root.command.Leads edited 48 ⟨2, 4⟩ ∧
      before edited ⟨2, 4⟩ = utf8 "<svg xmlns=\"http://www.w3.org/2000/svg\">\n\t\n</sv" ∧
      ¬ BetweenRootTags edited 1 ⟨2, 4⟩ := by
  intro catalog text root edited
  have hless : text[0]? = some Byte.less := by decide
  have htagless : Tagless (text.take 1) := precedingTag_eq_none_iff.mp (by decide)
  have hmove : root.command.move edited (positionAt edited (48 : Nat)) = ⟨2, 4⟩ := by
    decide +kernel
  have hoffset : offset edited ⟨2, 4⟩ = 47 := by decide +kernel
  refine ⟨rootCandidate_mem_complete hless htagless, ⟨_, rfl, rfl, rfl⟩, ?_, ?_, ?_⟩
  · rw [← hmove]
    exact .within rfl
  · rw [before_eq_take, hoffset]
    rfl
  · rw [BetweenRootTags, hoffset]
    decide

end SvgAssist.Completion
