import SvgAssist.Proofs.Markup.Document
import SvgAssist.Proofs.Markup.Nesting

/-!
# Recovering documents

The scan of a document that was written node by node finds each node where it was put, whatever
follows it (`eventsFrom_render`), and the outline folds the tags back into the tree
(`parse_renderAll`).
-/

namespace SvgAssist.Markup

/-! ## Tags -/

def isPassedOver (b : UInt8) : Bool :=
  b != Byte.doubleQuote && b != Byte.singleQuote && b != Byte.slash && b != Byte.less &&
    b != Byte.greater

theorem isPassedOver_of_isAttributeSpace {b : UInt8} (h : isAttributeSpace b) : isPassedOver b := by
  simp only [isAttributeSpace, Bool.or_eq_true, beq_iff_eq] at h
  rcases h with (((rfl | rfl) | rfl) | rfl) | rfl <;> decide

theorem isPassedOver_of_isAttributeNameByte {b : UInt8} (h : isAttributeNameByte b) :
    isPassedOver b := by
  simp only [isAttributeNameByte, isPassedOver, Bool.and_eq_true] at h ⊢
  tauto

-- Bytes that are passed over change nothing about where the tag ends.
theorem tagEnd_append {front : Text} (hfront : ∀ b ∈ front, isPassedOver b) (seen : Nat)
    (rest : Text) :
    tagEnd none false seen (front ++ rest) = tagEnd none false (seen + front.length) rest := by
  induction front generalizing seen with
  | nil => rfl
  | cons b front ih =>
    have hb := hfront b List.mem_cons_self
    simp only [isPassedOver, Bool.and_eq_true, bne_iff_ne, ne_eq] at hb
    obtain ⟨⟨⟨⟨hdouble, hsingle⟩, hslash⟩, hless⟩, hgreater⟩ := hb
    have hforget : (b == Byte.slash) = false := beq_eq_false_iff_ne.mpr hslash
    rw [List.cons_append, tagEnd, if_neg (by simp [hdouble, hsingle]), if_neg hgreater,
      if_neg hless, hforget, ih (fun b hmem => hfront b (List.mem_cons_of_mem _ hmem)),
      List.length_cons, Nat.add_right_comm, Nat.add_assoc seen]

-- Inside of an attribute value nothing but its quote counts.
theorem tagEnd_value {quote : UInt8} (hquote : quote ≠ Byte.slash) {value : Text}
    (hvalue : quote ∉ value) (slash : Bool) (seen : Nat) (rest : Text) :
    tagEnd (some quote) slash seen (value ++ quote :: rest) =
      tagEnd none false (seen + value.length + 1) rest := by
  induction value generalizing slash seen with
  | nil =>
    have hforget : (quote == Byte.slash) = false := beq_eq_false_iff_ne.mpr hquote
    rw [List.nil_append, tagEnd, if_pos rfl, hforget]
    rfl
  | cons b value ih =>
    -- Whether the byte before was a slash is forgotten at the quote that ends the value.
    rw [List.mem_cons, not_or] at hvalue
    obtain ⟨hb, hvalue⟩ := hvalue
    rw [List.cons_append, tagEnd, if_neg (Ne.symm hb), ih hvalue, List.length_cons,
      Nat.add_right_comm seen, ← Nat.add_assoc]

theorem Attribute.isPassedOver_front (a : Attribute) : ∀ b ∈ a.front, isPassedOver b := by
  intro b hb
  simp only [front, List.mem_append, List.mem_singleton] at hb
  rcases hb with (((hb | hb) | hb) | rfl) | hb
  · exact isPassedOver_of_isAttributeSpace (a.space.isSpace b hb)
  · exact isPassedOver_of_isAttributeNameByte (a.isName b hb)
  · exact isPassedOver_of_isAttributeSpace (a.beforeEquals.isSpace b hb)
  · decide
  · exact isPassedOver_of_isAttributeSpace (a.afterEquals.isSpace b hb)

-- The quotes of a value are passed together with all that stands between them.
theorem tagEnd_attribute (a : Attribute) (seen : Nat) (rest : Text) :
    tagEnd none false seen (a.render ++ rest) =
      tagEnd none false (seen + a.render.length) rest := by
  have hquote : a.quote = Byte.doubleQuote ∨ a.quote = Byte.singleQuote := a.isQuote
  have hslash : a.quote ≠ Byte.slash := by
    rcases hquote with h | h <;> rw [h] <;> decide
  rw [Attribute.render, List.append_assoc, tagEnd_append a.isPassedOver_front, List.cons_append,
    tagEnd, if_pos (by simpa using hquote), List.append_assoc, List.singleton_append,
    tagEnd_value hslash a.quote_notMem]
  congr 1
  simp only [List.length_append, List.length_cons, List.length_nil]
  omega

-- The attributes are passed one by one, and then the white space behind them.
theorem tagEnd_attributes (as : Attributes) (rest : Text) :
    tagEnd none false 0 (as.render ++ rest) = tagEnd none false as.render.length rest := by
  have hlist (list : List Attribute) (seen : Nat) (rest : Text) :
      tagEnd none false seen (list.flatMap Attribute.render ++ rest) =
        tagEnd none false (seen + (list.flatMap Attribute.render).length) rest := by
    induction list generalizing seen with
    | nil => rfl
    | cons a list ih =>
      rw [List.flatMap_cons, List.append_assoc, tagEnd_attribute, ih, List.length_append,
        Nat.add_assoc]
  rw [Attributes.render, List.append_assoc, hlist, tagEnd_append, List.length_append, Nat.zero_add]
  exact fun b hb => isPassedOver_of_isAttributeSpace (as.space.isSpace b hb)

/-! ## Names -/

-- A name is not empty, and its first byte is what tells a start tag.
theorem TagName.exists_cons (name : TagName) :
    ∃ b more, name.bytes = b :: more ∧ isNameStart b ∧ ∀ c ∈ more, isNameByte c := by
  obtain ⟨b, more, hbytes⟩ := List.exists_cons_of_ne_nil name.ne_nil
  have hwhole := name.whole
  rw [hbytes, takeName] at hwhole
  split at hwhole
  · rename_i hb
    exact ⟨b, more, hbytes, hb, List.takeWhile_eq_self_iff.mp (List.cons.inj hwhole).2⟩
  · simp at hwhole

theorem TagName.isNameByte_of_mem (name : TagName) {b : UInt8} (h : b ∈ name.bytes) :
    isNameByte b := by
  rw [← name.whole] at h
  exact isNameByte_of_mem_takeName h

-- A name is read whole in front of anything that does not go on with it.
theorem TagName.takeName_append (name : TagName) {rest : Text}
    (hrest : ∀ b, rest.head? = some b → ¬ isNameByte b) :
    takeName (name.bytes ++ rest) = name.bytes := by
  obtain ⟨b, more, hbytes, hb, hmore⟩ := name.exists_cons
  rw [hbytes, List.cons_append, takeName, if_pos hb, takeWhile_append_of_stop hmore hrest]

-- What follows white space, or no white space, does not make a name longer.
theorem Space.head?_append (space : Space) {rest : Text}
    (hrest : ∀ b, rest.head? = some b → ¬ isNameByte b) :
    ∀ b, (space.bytes ++ rest).head? = some b → ¬ isNameByte b := by
  intro b hb
  cases hbytes : space.bytes with
  | nil => exact hrest b (by rwa [hbytes] at hb)
  | cons c more =>
    rw [hbytes, List.cons_append, List.head?_cons] at hb
    obtain rfl := Option.some.inj hb
    exact not_isNameByte_of_isAttributeSpace (space.isSpace c (by simp [hbytes]))

theorem Attributes.head?_append (as : Attributes) {rest : Text}
    (hrest : ∀ b, rest.head? = some b → ¬ isNameByte b) :
    ∀ b, (as.render ++ rest).head? = some b → ¬ isNameByte b := by
  obtain ⟨list, space⟩ := as
  cases list with
  | nil => exact space.head?_append hrest
  | cons a list =>
    intro b hb
    obtain ⟨c, more, hbytes⟩ := List.exists_cons_of_ne_nil a.space_ne_nil
    simp only [render, List.flatMap_cons, Attribute.render, Attribute.front, hbytes,
      List.cons_append, List.head?_cons, Option.some.injEq] at hb
    subst hb
    exact not_isNameByte_of_isAttributeSpace (a.space.isSpace c (by simp [hbytes]))

/-! ## Constructs -/

-- A start tag is found whole when its closing is seen as one, with or without a slash.
theorem construct_tag (name : TagName) (as : Attributes) (closing tail : Text)
    (hclosing : ∀ b, (closing ++ tail).head? = some b → ¬ isNameByte b) {selfClosing : Bool}
    (hend : tagEnd none false as.render.length (closing ++ tail) =
      .closed selfClosing (as.render.length + closing.length)) :
    construct (Byte.less :: (name.bytes ++ (as.render ++ closing)) ++ tail) =
      .found (if selfClosing then .selfClosed else .opened) name.bytes
        (Byte.less :: (name.bytes ++ (as.render ++ closing))).length := by
  obtain ⟨b, more, hbytes, hb, -⟩ := name.exists_cons
  -- A name begins with none of the marks of the other constructs.
  have hother (c : UInt8) (hc : isNameStart c = false) : b ≠ c := by
    rintro rfl
    simp [hc] at hb
  have hname := name.takeName_append (as.head?_append hclosing)
  have htag (rest : Text) : construct (Byte.less :: (name.bytes ++ rest)) =
      startTag (name.bytes ++ rest) := by
    rw [hbytes, List.cons_append]
    exact construct_other (hother _ (by decide)) (hother _ (by decide)) (hother _ (by decide)) _
  have hlen : 1 + name.bytes.length + (as.render.length + closing.length) =
      (Byte.less :: (name.bytes ++ (as.render ++ closing))).length := by
    simp only [List.length_cons, List.length_append]
    omega
  rw [← hlen, List.cons_append, List.append_assoc, List.append_assoc, htag, startTag, hname,
    if_neg name.ne_nil, List.drop_left, tagEnd_attributes, hend]
  cases selfClosing <;> rfl

-- A start tag that was written is found as a whole, and nothing behind it is looked at.
theorem construct_opener (name : TagName) (as : Attributes) (tail : Text) :
    construct (Node.opener name as ++ tail) =
      .found .opened name.bytes (Node.opener name as).length :=
  construct_tag name as (utf8 ">") tail (by rintro b ⟨⟩; decide) rfl

theorem construct_empty (name : TagName) (as : Attributes) (tail : Text) :
    construct (Node.render (.empty name as) ++ tail) =
      .found .selfClosed name.bytes (Node.render (.empty name as)).length := by
  rw [Node.render]
  exact construct_tag name as (utf8 "/>") tail (by rintro b ⟨⟩; decide) rfl

-- A construct ends with the terminator that was put behind its body.
theorem pastFirst_append {terminator body : Text} (hborder : Text.Unbordered terminator)
    (hbody : ¬ terminator <:+: body) (opener tail : Text) :
    pastFirst terminator opener.length (opener ++ (body ++ (terminator ++ tail))) =
      some (opener.length + body.length + terminator.length) := by
  rw [pastFirst, List.drop_left, Text.indexOf_append_terminator hborder hbody]
  rfl

-- Text without a byte has no occurrence of it.
theorem not_infix_of_notMem {b : UInt8} {body : Text} (h : b ∉ body) : ¬ [b] <:+: body :=
  fun hin => h (hin.subset List.mem_cons_self)

theorem construct_closer (name : TagName) (space : Space) (tail : Text) :
    construct (Node.closer name space ++ tail) =
      .found .closed name.bytes (Node.closer name space).length := by
  have hname : takeName (name.bytes ++ (space.bytes ++ (utf8 ">" ++ tail))) = name.bytes :=
    name.takeName_append (space.head?_append (by rintro b ⟨⟩; decide))
  have hfree : Byte.greater ∉ Byte.less :: Byte.slash :: (name.bytes ++ space.bytes) := by
    intro hmem
    simp only [List.mem_cons, List.mem_append] at hmem
    rcases hmem with h | h | h | h
    · exact absurd h (by decide)
    · exact absurd h (by decide)
    · exact absurd (name.isNameByte_of_mem h) (by decide)
    · exact absurd (space.isSpace _ h) (by decide)
  have hlen : (Node.closer name space).length =
      0 + (Byte.less :: Byte.slash :: (name.bytes ++ space.bytes)).length + (utf8 ">").length := by
    simp only [Node.closer, List.length_cons, List.length_append]
    omega
  have hpast : pastFirst (utf8 ">") 0
      (Byte.less :: Byte.slash :: (name.bytes ++ (space.bytes ++ (utf8 ">" ++ tail)))) =
        some (Node.closer name space).length := by
    rw [hlen, ← List.append_assoc]
    exact pastFirst_append (by decide) (not_infix_of_notMem hfree) [] tail
  have hshape : Node.closer name space ++ tail =
      Byte.less :: Byte.slash :: (name.bytes ++ (space.bytes ++ (utf8 ">" ++ tail))) := by
    simp only [Node.closer, List.cons_append, List.append_assoc]
  rw [hshape, construct_slash, endTag, hpast, List.drop_succ_cons, List.drop_succ_cons,
    List.drop_zero, hname]

-- A body without the terminator ends at the first one, which does not overlap the body.
theorem skipPast_append {terminator body : Text} (hborder : Text.Unbordered terminator)
    (hbody : ¬ terminator <:+: body) (opener tail : Text) :
    skipPast terminator opener.length (opener ++ (body ++ (terminator ++ tail))) =
      .skipped (opener ++ (body ++ terminator)).length := by
  rw [skipPast, pastFirst_append hborder hbody]
  simp only [List.length_append, Nat.add_assoc]

theorem construct_comment (body : Text) (hfree : ¬ utf8 "-->" <:+: body) (tail : Text) :
    construct (Node.render (.comment body hfree) ++ tail) =
      .found .comment [] (Node.render (.comment body hfree)).length := by
  have hpast : pastFirst (utf8 "-->") 4
      (Byte.less :: Byte.bang :: (utf8 "--" ++ (body ++ (utf8 "-->" ++ tail)))) =
        some ((utf8 "<!--").length + body.length + (utf8 "-->").length) :=
    pastFirst_append (by decide) hfree (utf8 "<!--") tail
  have hshape : Node.render (.comment body hfree) ++ tail =
      Byte.less :: Byte.bang :: (utf8 "--" ++ (body ++ (utf8 "-->" ++ tail))) := by
    simp only [Node.render, List.append_assoc]
    rfl
  rw [hshape, construct_bang, if_pos (List.prefix_append _ _), comment, hpast]
  simp only [Node.render, List.length_append, Nat.add_assoc]

theorem construct_data (body : Text) (hfree : ¬ utf8 "]]>" <:+: body) (tail : Text) :
    construct (Node.render (.data body hfree) ++ tail) =
      .skipped (Node.render (.data body hfree)).length := by
  have hskip : skipPast (utf8 "]]>") 9
      (Byte.less :: Byte.bang :: (utf8 "[CDATA[" ++ (body ++ (utf8 "]]>" ++ tail)))) =
        .skipped (utf8 "<![CDATA[" ++ (body ++ utf8 "]]>")).length :=
    skipPast_append (by decide) hfree (utf8 "<![CDATA[") tail
  have hshape : Node.render (.data body hfree) ++ tail =
      Byte.less :: Byte.bang :: (utf8 "[CDATA[" ++ (body ++ (utf8 "]]>" ++ tail))) := by
    simp only [Node.render, List.append_assoc]
    rfl
  have hcomment : ¬ utf8 "--" <+: utf8 "[CDATA[" ++ (body ++ (utf8 "]]>" ++ tail)) :=
    fun h => absurd (List.cons_prefix_cons.mp h).1 (by decide)
  rw [hshape, construct_bang, if_neg hcomment, if_pos (List.prefix_append _ _), hskip, Node.render]

theorem construct_instruction (body : Text) (hfree : ¬ utf8 "?>" <:+: body) (tail : Text) :
    construct (Node.render (.instruction body hfree) ++ tail) =
      .skipped (Node.render (.instruction body hfree)).length := by
  have hskip : skipPast (utf8 "?>") 2
      (Byte.less :: Byte.question :: (body ++ (utf8 "?>" ++ tail))) =
        .skipped (utf8 "<?" ++ (body ++ utf8 "?>")).length :=
    skipPast_append (by decide) hfree (utf8 "<?") tail
  have hshape : Node.render (.instruction body hfree) ++ tail =
      Byte.less :: Byte.question :: (body ++ (utf8 "?>" ++ tail)) := by
    simp only [Node.render, List.append_assoc]
    rfl
  rw [hshape, construct_question, hskip, Node.render]

-- What does not hold a byte begins a text no later than that byte.
theorem prefix_of_prefix_append_cons {opener body tail : Text} {b : UInt8} (hb : b ∉ opener)
    (h : opener <+: body ++ b :: tail) : opener <+: body := by
  refine List.prefix_of_prefix_length_le h (List.prefix_append _ _) ?_
  -- A longer opener would hold the byte behind the body.
  by_contra hlong
  have hat : opener[body.length]? = some b := by
    obtain ⟨rest, hrest⟩ := h
    have hget := congrArg (·[body.length]?) hrest
    simpa [List.getElem?_append_left (Nat.lt_of_not_le hlong)] using hget
  exact hb (List.mem_of_getElem? hat)

-- A declaration is no comment and no character data, and ends at its first `>`.
theorem construct_declaration (body : Text) (hfree : Byte.greater ∉ body)
    (hcomment : ¬ utf8 "--" <+: body) (hdata : ¬ utf8 "[CDATA[" <+: body) (tail : Text) :
    construct (Node.render (.declaration body hfree hcomment hdata) ++ tail) =
      .skipped (Node.render (.declaration body hfree hcomment hdata)).length := by
  have hskip : skipPast (utf8 ">") 2
      (Byte.less :: Byte.bang :: (body ++ (utf8 ">" ++ tail))) =
        .skipped (utf8 "<!" ++ (body ++ utf8 ">")).length :=
    skipPast_append (by decide) (not_infix_of_notMem hfree) (utf8 "<!") tail
  have hshape : Node.render (.declaration body hfree hcomment hdata) ++ tail =
      Byte.less :: Byte.bang :: (body ++ (utf8 ">" ++ tail)) := by
    simp only [Node.render, List.append_assoc]
    rfl
  have hnoComment : ¬ utf8 "--" <+: body ++ (utf8 ">" ++ tail) :=
    fun h => hcomment (prefix_of_prefix_append_cons (by decide) h)
  have hnoData : ¬ utf8 "[CDATA[" <+: body ++ (utf8 ">" ++ tail) :=
    fun h => hdata (prefix_of_prefix_append_cons (by decide) h)
  rw [hshape, construct_bang, if_neg hnoComment, if_neg hnoData, hskip, Node.render]

/-! ## Events -/

section eventsFrom

variable {front tail : Text}

-- What was found at the front is the first event.
theorem eventsFrom_of_found {kind : EventKind} {name : Text}
    (hfront : front.head? = some Byte.less)
    (h : construct (front ++ tail) = .found kind name front.length) (offset : Nat) :
    eventsFrom offset (front ++ tail) =
      ⟨kind, name, offset, offset + front.length⟩ :: eventsFrom (offset + front.length) tail := by
  obtain ⟨rest, rfl⟩ := List.head?_eq_some_iff.mp hfront
  rw [List.cons_append] at h ⊢
  rw [eventsFrom, piece, if_pos rfl, h]
  simp only [List.length_cons, Nat.add_sub_cancel, List.drop_left]

-- What is stepped over at the front reports nothing.
theorem eventsFrom_of_skipped (hfront : front.head? = some Byte.less)
    (h : construct (front ++ tail) = .skipped front.length) (offset : Nat) :
    eventsFrom offset (front ++ tail) = eventsFrom (offset + front.length) tail := by
  obtain ⟨rest, rfl⟩ := List.head?_eq_some_iff.mp hfront
  rw [List.cons_append] at h ⊢
  rw [eventsFrom, piece, if_pos rfl, h]
  simp only [List.length_cons, Nat.add_sub_cancel, List.drop_left]

-- Text has no markup and reports nothing.
theorem eventsFrom_text (hfront : Byte.less ∉ front) (offset : Nat) :
    eventsFrom offset (front ++ tail) = eventsFrom (offset + front.length) tail := by
  induction front generalizing offset with
  | nil => rfl
  | cons b front ih =>
    rw [List.mem_cons, not_or] at hfront
    rw [List.cons_append, eventsFrom, piece, if_neg (Ne.symm hfront.1)]
    simp only [Nat.sub_self, List.drop_zero]
    rw [ih hfront.2, List.length_cons, Nat.add_right_comm, Nat.add_assoc]

end eventsFrom

namespace Node

mutual

def events (offset : Nat) : Node → List Event
  | .comment body hfree =>
    [⟨.comment, [], offset, offset + (render (.comment body hfree)).length⟩]
  | .empty name attributes =>
    [⟨.selfClosed, name.bytes, offset, offset + (render (.empty name attributes)).length⟩]
  | .element name attributes children space =>
    let inner := offset + (opener name attributes).length
    let outer := inner + (renderAll children).length
    ⟨.opened, name.bytes, offset, inner⟩ :: (eventsAll inner children ++
      [⟨.closed, name.bytes, outer, outer + (closer name space).length⟩])
  | .text _ _ | .data _ _ | .instruction _ _ | .declaration _ _ _ _ => []

def eventsAll (offset : Nat) : List Node → List Event
  | [] => []
  | n :: ns => events offset n ++ eventsAll (offset + (render n).length) ns

end

mutual

/-- A node is found where it is written, and the scan goes on behind it. -/
theorem eventsFrom_render (offset : Nat) (n : Node) (tail : Text) :
    eventsFrom offset (render n ++ tail) =
      events offset n ++ eventsFrom (offset + (render n).length) tail := by
  cases n with
  | text bytes hfree => exact eventsFrom_text hfree offset
  | comment body hfree => exact eventsFrom_of_found rfl (construct_comment body hfree tail) offset
  | data body hfree => exact eventsFrom_of_skipped rfl (construct_data body hfree tail) offset
  | instruction body hfree =>
    exact eventsFrom_of_skipped rfl (construct_instruction body hfree tail) offset
  | declaration body hfree hcomment hdata =>
    exact eventsFrom_of_skipped rfl (construct_declaration body hfree hcomment hdata tail) offset
  | empty name attributes =>
    exact eventsFrom_of_found rfl (construct_empty name attributes tail) offset
  | element name attributes children space =>
    -- The start tag, then the children in front of the end tag, then the end tag.
    rw [render, List.append_assoc, eventsFrom_of_found rfl (construct_opener name attributes _),
      List.append_assoc, eventsFrom_renderAll,
      eventsFrom_of_found rfl (construct_closer name space tail)]
    simp only [events, List.length_append, List.cons_append, List.append_assoc, List.nil_append,
      Nat.add_assoc]

-- By induction on the nodes, each behind the text of those in front.
theorem eventsFrom_renderAll (offset : Nat) (ns : List Node) (tail : Text) :
    eventsFrom offset (renderAll ns ++ tail) =
      eventsAll offset ns ++ eventsFrom (offset + (renderAll ns).length) tail := by
  cases ns with
  | nil =>
    rw [renderAll, eventsAll]
    rfl
  | cons n ns =>
    rw [renderAll, eventsAll, List.append_assoc, eventsFrom_render, eventsFrom_renderAll,
      List.length_append, List.append_assoc, Nat.add_assoc]

end

end Node

/-! ## The tree -/

namespace Draft

def extend (es : List Element) (cs : List Span) (d : Draft) : Draft :=
  match d.stack with
  | [] => { d with roots := es.reverse ++ d.roots, comments := cs.reverse ++ d.comments }
  | top :: below =>
    { d with
      stack := { top with children := es.reverse ++ top.children } :: below
      comments := cs.reverse ++ d.comments }

theorem extend_nil (d : Draft) : d.extend [] [] = d := by
  obtain ⟨stack, roots, comments⟩ := d
  cases stack <;> rfl

theorem extend_extend (es es' : List Element) (cs cs' : List Span) (d : Draft) :
    (d.extend es cs).extend es' cs' = d.extend (es ++ es') (cs ++ cs') := by
  obtain ⟨stack, roots, comments⟩ := d
  cases stack <;> simp [extend]

-- A complete element extends a draft by itself.
theorem add_eq_extend (e : Element) (d : Draft) : d.add e = d.extend [e] [] := by
  obtain ⟨stack, roots, comments⟩ := d
  cases stack <;> rfl

-- An element that is opened, filled and closed becomes complete.
theorem close_extend_open (name : Text) (start : Nat) (es : List Element) (cs : List Span)
    (closer : Event) (hclosed : closer.kind = .closed) (hname : closer.name = name) (d : Draft) :
    (extend es cs { d with stack := ⟨name, start, []⟩ :: d.stack }).step closer =
      d.extend [.mk name ⟨start, closer.stop⟩ es] cs := by
  -- The innermost open element is the one that was just opened, whatever is open around it.
  have hfind (children : List Element) :
      (⟨name, start, children⟩ :: d.stack).findIdx? (·.name == closer.name) = some 0 := by
    simp [List.findIdx?_cons, hname]
  obtain ⟨stack, roots, comments⟩ := d
  simp only [extend, step, hclosed, hfind, closeMany, closeTop, OpenElement.close]
  cases stack <;> simp [add]

end Draft

namespace Node

mutual

-- The tags of a node put its elements and comments into a draft.
theorem foldl_events (offset : Nat) (n : Node) (d : Draft) :
    (events offset n).foldl Draft.step d = d.extend (elements offset n) (comments offset n) := by
  cases n with
  | comment body hfree =>
    simp only [events, elements, comments, List.foldl_cons, List.foldl_nil, Draft.step]
    obtain ⟨stack, roots, comments⟩ := d
    cases stack <;> rfl
  | empty name attributes =>
    simp only [events, elements, comments, List.foldl_cons, List.foldl_nil, Draft.step]
    exact Draft.add_eq_extend _ d
  | element name attributes children space =>
    have hlen : offset + (render (.element name attributes children space)).length =
        offset + (opener name attributes).length + (renderAll children).length +
          (closer name space).length := by
      simp only [render, List.length_append]
      omega
    simp only [events, elements, comments, hlen]
    rw [List.foldl_cons, List.foldl_append, foldl_eventsAll, List.foldl_cons, List.foldl_nil]
    exact Draft.close_extend_open name.bytes offset _ _ _ rfl rfl d
  | _ => simp only [events, elements, comments, List.foldl_nil, Draft.extend_nil]

theorem foldl_eventsAll (offset : Nat) (ns : List Node) (d : Draft) :
    (eventsAll offset ns).foldl Draft.step d =
      d.extend (elementsAll offset ns) (commentsAll offset ns) := by
  cases ns with
  | nil => simp only [eventsAll, elementsAll, commentsAll, List.foldl_nil, Draft.extend_nil]
  | cons n ns =>
    rw [eventsAll, elementsAll, commentsAll, List.foldl_append, foldl_events, foldl_eventsAll,
      Draft.extend_extend]

end

-- Nothing is left behind the last node.
theorem eventsFrom_document (ns : List Node) : eventsFrom 0 (renderAll ns) = eventsAll 0 ns := by
  have hevents := eventsFrom_renderAll 0 ns []
  rwa [List.append_nil, eventsFrom, List.append_nil] at hevents

end Node

/-- The outline of a document has its elements, nested and ordered as they are written, and its
comments, and each of their spans covers exactly the bytes that were written for it. -/
theorem parse_renderAll (document : List Node) :
    ∃ o, Outline.parse .unlimited (Node.renderAll document) = .ok o ∧
      o.roots = Node.elementsAll 0 document ∧ o.comments = Node.commentsAll 0 document ∧
      (o.walk.map fun e => e.2.2.bytes (Node.renderAll document)) =
        Node.writtenElementsAll document ∧
      (o.comments.map fun s => s.bytes (Node.renderAll document)) =
        Node.writtenCommentsAll document := by
  have hspans := Node.map_bytes_elementsAll [] [] 0 document
  have hcomments := Node.map_bytes_commentsAll [] [] document
  rw [List.nil_append, List.append_nil] at hspans hcomments
  refine ⟨⟨Node.elementsAll 0 document, Node.commentsAll 0 document⟩, ?_, rfl, rfl, hspans,
    hcomments⟩
  rw [parse_unlimited, Node.eventsFrom_document, Node.foldl_eventsAll]
  simp [Draft.extend, Draft.empty, Draft.finish, Draft.closeMany]

end SvgAssist.Markup
