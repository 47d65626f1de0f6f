import SvgAssist.Proofs.Markup.Document
import SvgAssist.Proofs.Markup.Enclosing

/-!
# Where a value begins

An attribute list that ends in a name, an equals sign and at most a quote opens the value of that
attribute. `ValueOpening` has the parts of such a list and `AtValue` those of a text that ends in
one. Each of them is told by what it spells, and the attribute that a cursor stands at the value of
is the one that the text before the cursor spells (`enclosingAttribute_iff_atValue`).
-/

namespace SvgAssist.Markup

attribute [ext] Space

def Space.empty : Space := ⟨[], List.forall_mem_nil _⟩

def Space.single : Space := ⟨[Byte.space], List.forall_mem_singleton.mpr rfl⟩

/-! ## Names -/

/-- A byte that may begin a name, and behind it bytes that may stand in one. -/
def IsName : Text → Prop
  | [] => False
  | first :: more => isNameStart first ∧ ∀ b ∈ more, isNameByte b

instance (text : Text) : Decidable (IsName text) :=
  match text with
  | [] => inferInstanceAs (Decidable False)
  | _ :: more => @instDecidableAnd _ _ _ (List.decidableBAll _ more)

theorem isName_iff {text : Text} : IsName text ↔ takeName text = text ∧ text ≠ [] := by
  cases text with
  | nil => simp [IsName]
  | cons first more =>
    by_cases hfirst : isNameStart first
    · simp [IsName, takeName, hfirst, List.takeWhile_eq_self_iff]
    · simp [IsName, takeName, hfirst]

theorem IsName.exists_cons {text : Text} (h : IsName text) :
    ∃ first more, text = first :: more ∧ isNameStart first := by
  cases text with
  | nil => exact h.elim
  | cons first more => exact ⟨first, more, rfl, h.1⟩

theorem IsName.isNameByte_of_mem {text : Text} (h : IsName text) : ∀ b ∈ text, isNameByte b := by
  intro b hb
  rw [← (isName_iff.mp h).1] at hb
  exact isNameByte_of_mem_takeName hb

/-! ## Openings -/

def EndsInSpace (text : Text) : Prop := ∃ b, text.getLast? = some b ∧ isAttributeSpace b

/-- The parts of an attribute list that ends where a value begins: what comes before the name of the
attribute, the name, the white space around the equals sign, and the quote if there is one. In front
of the name is white space or the start of the list. -/
@[ext]
structure ValueOpening where
  before : Text
  name : Text
  beforeEquals : Space
  afterEquals : Space
  quote : Text
  isName : IsName name
  spaced : before = [] ∨ EndsInSpace before
  quote_eq : quote = [] ∨ quote = [Byte.doubleQuote]

def ValueOpening.render (v : ValueOpening) : Text :=
  v.before ++ (v.name ++ (v.beforeEquals.bytes ++ Byte.equals :: (v.afterEquals.bytes ++ v.quote)))

/-! ### The quote -/

def unquoted (attributes : Text) : List UInt8 :=
  match attributes.reverse with
  | Byte.doubleQuote :: earlier => earlier
  | all => all

theorem unquoted_append {front quote : Text} (hquote : quote = [] ∨ quote = [Byte.doubleQuote])
    (hfront : front.getLast? ≠ some Byte.doubleQuote) :
    unquoted (front ++ quote) = front.reverse := by
  unfold unquoted
  rcases hquote with rfl | rfl
  · rw [List.append_nil]
    split
    · rename_i earlier hreverse
      rw [← List.head?_reverse, hreverse] at hfront
      exact absurd rfl hfront
    · rfl
  · rw [List.reverse_append]
    rfl

-- A list is what comes before the double quote at its end, and that quote if there is one.
theorem exists_quote (attributes : Text) :
    ∃ quote, (quote = [] ∨ quote = [Byte.doubleQuote]) ∧
      (unquoted attributes).reverse ++ quote = attributes := by
  unfold unquoted
  split
  · rename_i earlier hreverse
    have hall : attributes = (Byte.doubleQuote :: earlier).reverse :=
      List.reverse_eq_iff.mp hreverse
    exact ⟨[Byte.doubleQuote], .inr rfl, by rw [hall, List.reverse_cons]⟩
  · exact ⟨[], .inl rfl, by rw [List.append_nil, List.reverse_reverse]⟩

/-! ### The name -/

def nameAtEnd (backwards : List UInt8) : Option (Text × Text) :=
  let name := (backwards.takeWhile isNameByte).reverse
  let front := backwards.dropWhile isNameByte
  match name, front with
  | [], _ => none
  | first :: _, [] => if isNameStart first then some ([], name) else none
  | first :: _, b :: _ =>
    if isNameStart first && isAttributeSpace b then some (front.reverse, name) else none

-- Read backwards, a name ends at the white space in front of it.
theorem not_isNameByte_of_spaced {before : Text} (h : before = [] ∨ EndsInSpace before) :
    ∀ b, before.reverse.head? = some b → ¬ isNameByte b := by
  intro b hb
  rw [List.head?_reverse] at hb
  rcases h with rfl | ⟨space, hspace, hisSpace⟩
  · exact absurd hb (by simp)
  · obtain rfl := Option.some.inj (hb.symm.trans hspace)
    exact not_isNameByte_of_isAttributeSpace hisSpace

-- A name is found in front of the white space that ends where it begins.
theorem nameAtEnd_append {before name : Text} (hname : IsName name)
    (hspaced : before = [] ∨ EndsInSpace before) :
    nameAtEnd (name.reverse ++ before.reverse) = some (before, name) := by
  have hbytes : ∀ b ∈ name.reverse, isNameByte b :=
    fun b hb => hname.isNameByte_of_mem b (List.mem_reverse.mp hb)
  have hstop := not_isNameByte_of_spaced hspaced
  obtain ⟨first, more, rfl, hfirst⟩ := hname.exists_cons
  unfold nameAtEnd
  simp only
  rw [takeWhile_append_of_stop hbytes hstop, dropWhile_append_of_stop hbytes hstop,
    List.reverse_reverse, List.reverse_reverse]
  rcases hspaced with rfl | ⟨b, hlast, hspace⟩
  · exact if_pos hfirst
  · obtain ⟨earlier, hearlier⟩ : ∃ earlier, before.reverse = b :: earlier := by
      rw [← List.head?_eq_some_iff, List.head?_reverse, hlast]
    rw [hearlier]
    exact if_pos (by rw [hfirst, hspace]; rfl)

-- What is found is a name, and white space or nothing stands in front of it.
theorem of_nameAtEnd {backwards : List UInt8} {before name : Text}
    (h : nameAtEnd backwards = some (before, name)) :
    backwards = name.reverse ++ before.reverse ∧ IsName name ∧
      (before = [] ∨ EndsInSpace before) := by
  have hsplit : backwards.takeWhile isNameByte ++ backwards.dropWhile isNameByte = backwards :=
    List.takeWhile_append_dropWhile
  have hbytes : ∀ b ∈ (backwards.takeWhile isNameByte).reverse, isNameByte b :=
    fun b hb => List.mem_takeWhile_imp (List.mem_reverse.mp hb)
  unfold nameAtEnd at h
  simp only at h
  split at h
  · simp at h
  · rename_i first more hname hfront
    split_ifs at h with hfirst
    obtain ⟨rfl, rfl⟩ := Prod.mk.inj (Option.some.inj h)
    rw [hfront, List.append_nil] at hsplit
    refine ⟨by rw [List.reverse_reverse, hsplit, List.reverse_nil, List.append_nil], ?_, .inl rfl⟩
    rw [hname] at hbytes ⊢
    exact ⟨hfirst, fun b hb => hbytes b (List.mem_cons_of_mem first hb)⟩
  · rename_i first more b earlier hname hfront
    split_ifs at h with hboth
    obtain ⟨rfl, rfl⟩ := Prod.mk.inj (Option.some.inj h)
    rw [Bool.and_eq_true] at hboth
    refine ⟨by rw [List.reverse_reverse, List.reverse_reverse, hsplit], ?_, .inr ⟨b, ?_, hboth.2⟩⟩
    · rw [hname] at hbytes ⊢
      exact ⟨hboth.1, fun b hb => hbytes b (List.mem_cons_of_mem first hb)⟩
    · rw [List.getLast?_reverse, hfront, List.head?_cons]

/-! ### The value -/

theorem openValue_eq (attributes : Text) :
    openValue attributes =
      match (unquoted attributes).dropWhile isAttributeSpace with
      | Byte.equals :: earlier => nameAtEnd (earlier.dropWhile isAttributeSpace)
      | _ => none := rfl

-- White space that ends a list is passed over when the list is read backwards.
theorem Space.dropWhile_reverse (s : Space) {rest : List UInt8}
    (hrest : ∀ b, rest.head? = some b → ¬ isAttributeSpace b) :
    (s.bytes.reverse ++ rest).dropWhile isAttributeSpace = rest :=
  dropWhile_append_of_stop (fun b hb => s.isSpace b (List.mem_reverse.mp hb)) hrest

namespace ValueOpening

variable (v : ValueOpening)

def front : Text :=
  v.before ++ (v.name ++ (v.beforeEquals.bytes ++ Byte.equals :: v.afterEquals.bytes))

theorem front_append_quote : v.front ++ v.quote = v.render := by
  simp only [front, render, List.append_assoc, List.cons_append]

theorem reverse_front :
    v.front.reverse = v.afterEquals.bytes.reverse ++
      Byte.equals :: (v.beforeEquals.bytes.reverse ++ (v.name.reverse ++ v.before.reverse)) := by
  simp only [front, List.reverse_append, List.reverse_cons, List.append_assoc, List.cons_append,
    List.nil_append]

theorem getLast?_front_ne : v.front.getLast? ≠ some Byte.doubleQuote := by
  intro hlast
  rw [front, List.getLast?_append_of_ne_nil _ (by simp), List.getLast?_append_of_ne_nil _ (by simp),
    List.getLast?_append_of_ne_nil _ (by simp)] at hlast
  rcases List.mem_cons.mp (List.mem_of_getLast? hlast) with hequals | hspace
  · exact absurd hequals (by decide)
  · exact absurd (v.afterEquals.isSpace _ hspace) (by decide)

theorem not_isAttributeSpace_name :
    ∀ b, (v.name.reverse ++ v.before.reverse).head? = some b → ¬ isAttributeSpace b := by
  intro b hb hspace
  obtain ⟨first, more, hname, -⟩ := v.isName.exists_cons
  have hne : v.name.reverse ≠ [] := by simp [hname]
  rw [List.head?_append_of_ne_nil _ hne] at hb
  have hmem : b ∈ v.name := List.mem_reverse.mp (List.mem_of_head? hb)
  exact not_isNameByte_of_isAttributeSpace hspace (v.isName.isNameByte_of_mem b hmem)

-- The parts of an opening are found again, one after the other from its end.
theorem openValue_render : openValue v.render = some (v.before, v.name) := by
  have hequals : ∀ b, (Byte.equals :: (v.beforeEquals.bytes.reverse ++
      (v.name.reverse ++ v.before.reverse))).head? = some b → ¬ isAttributeSpace b := by
    rintro b ⟨⟩
    decide
  rw [openValue_eq, ← v.front_append_quote, unquoted_append v.quote_eq v.getLast?_front_ne,
    v.reverse_front, v.afterEquals.dropWhile_reverse hequals]
  show nameAtEnd ((v.beforeEquals.bytes.reverse ++
    (v.name.reverse ++ v.before.reverse)).dropWhile isAttributeSpace) = _
  rw [v.beforeEquals.dropWhile_reverse v.not_isAttributeSpace_name]
  exact nameAtEnd_append v.isName v.spaced

-- The white space of either side is the run of it that begins there.
theorem takeWhile_beforeEquals :
    (v.beforeEquals.bytes ++ Byte.equals :: (v.afterEquals.bytes ++ v.quote)).takeWhile
      isAttributeSpace = v.beforeEquals.bytes := by
  apply takeWhile_append_of_stop v.beforeEquals.isSpace
  rintro b ⟨⟩
  decide

theorem takeWhile_afterEquals :
    (v.afterEquals.bytes ++ v.quote).takeWhile isAttributeSpace = v.afterEquals.bytes := by
  apply takeWhile_append_of_stop v.afterEquals.isSpace
  rcases v.quote_eq with hquote | hquote <;> rw [hquote]
  · simp
  · rintro b ⟨⟩
    decide

end ValueOpening

def Space.ofBackwards (backwards : List UInt8) : Space where
  bytes := (backwards.takeWhile isAttributeSpace).reverse
  isSpace _ hb := List.mem_takeWhile_imp (List.mem_reverse.mp hb)

theorem Space.ofBackwards_append (backwards : List UInt8) :
    backwards.reverse =
      (backwards.dropWhile isAttributeSpace).reverse ++ (Space.ofBackwards backwards).bytes := by
  conv_lhs => rw [← List.takeWhile_append_dropWhile (p := isAttributeSpace) (l := backwards)]
  rw [List.reverse_append]
  rfl

-- What is found in a list are the parts of an opening: those passed on the way back are its white
-- space and its quote.
theorem exists_render_of_openValue {attributes before name : Text}
    (h : openValue attributes = some (before, name)) :
    ∃ v : ValueOpening, v.render = attributes ∧ v.before = before ∧ v.name = name := by
  rw [openValue_eq] at h
  split at h
  · rename_i earlier hequals
    obtain ⟨hearlier, hname, hspaced⟩ := of_nameAtEnd h
    obtain ⟨quote, hquote, hattributes⟩ := exists_quote attributes
    have hbefore : earlier.reverse = before ++ (name ++ (Space.ofBackwards earlier).bytes) := by
      rw [Space.ofBackwards_append, hearlier, List.reverse_append, List.reverse_reverse,
        List.reverse_reverse, List.append_assoc]
    refine ⟨⟨before, name, .ofBackwards earlier, .ofBackwards (unquoted attributes), quote, hname,
      hspaced, hquote⟩, Eq.trans ?_ hattributes, rfl, rfl⟩
    rw [Space.ofBackwards_append (unquoted attributes), hequals, List.reverse_cons, hbefore]
    simp only [ValueOpening.render, List.append_assoc, List.cons_append, List.nil_append]
    rfl
  · simp at h

/-- A list opens a value in one way only. -/
theorem ValueOpening.render_injective : Function.Injective render := by
  intro v w h
  -- What comes before the name, and the name, are what is read from the list.
  have hopen := v.openValue_render
  rw [h, w.openValue_render] at hopen
  obtain ⟨hbefore, hname⟩ := Prod.mk.inj (Option.some.inj hopen)
  have hequals : v.beforeEquals.bytes ++ Byte.equals :: (v.afterEquals.bytes ++ v.quote) =
      w.beforeEquals.bytes ++ Byte.equals :: (w.afterEquals.bytes ++ w.quote) := by
    rw [render, render, hbefore, hname] at h
    exact List.append_cancel_left (List.append_cancel_left h)
  have hbeforeEquals : v.beforeEquals.bytes = w.beforeEquals.bytes := by
    rw [← v.takeWhile_beforeEquals, hequals, w.takeWhile_beforeEquals]
  have hvalue : v.afterEquals.bytes ++ v.quote = w.afterEquals.bytes ++ w.quote := by
    rw [hbeforeEquals] at hequals
    exact (List.cons.inj (List.append_cancel_left hequals)).2
  have hafterEquals : v.afterEquals.bytes = w.afterEquals.bytes := by
    rw [← v.takeWhile_afterEquals, hvalue, w.takeWhile_afterEquals]
  rw [hafterEquals] at hvalue
  exact ValueOpening.ext hbefore.symm hname.symm (Space.ext hbeforeEquals)
    (Space.ext hafterEquals) (List.append_cancel_left hvalue)

/-- Behind white space, a name with an equals sign and a quote begins the value of the attribute. -/
theorem openValue_append {front name : Text} {space : UInt8} (hspace : isAttributeSpace space)
    (hname : takeName name = name) (hne : name ≠ []) :
    openValue (front ++ space :: (name ++ utf8 "=\"")) = some (front ++ [space], name) := by
  set v : ValueOpening := ⟨front ++ [space], name, .empty, .empty, [Byte.doubleQuote],
    isName_iff.mpr ⟨hname, hne⟩, .inr ⟨space, by simp, hspace⟩, .inr rfl⟩ with hv
  have hrender : v.render = front ++ space :: (name ++ utf8 "=\"") := by
    simp only [hv, ValueOpening.render, List.append_assoc, List.singleton_append]
    rfl
  rw [← hrender, v.openValue_render]

/-! ## Texts -/

/-- The parts of a text that ends where a value begins, inside of a start tag: what is in front of
the tag, its name as far as it goes, and the attributes, without angle brackets. -/
@[ext]
structure AtValue where
  front : Text
  tag : Text
  opening : ValueOpening
  tag_ne_nil : tag ≠ []
  tag_whole : takeName (tag ++ opening.render) = tag
  bracketFree : BracketFree opening.render
  endsInSpace : EndsInSpace opening.before

namespace AtValue

def text (a : AtValue) : Text := a.front ++ Byte.less :: (a.tag ++ a.opening.render)

-- No bracket stands between the `<` of the tag and the end of the text.
theorem enclosingTag_text (a : AtValue) :
    enclosingTag a.text = some ⟨a.tag, a.opening.render⟩ := by
  have htag : BracketFree a.tag := bracketFree_of_isNameByte fun b hb =>
    isNameByte_of_mem_takeName (a.tag_whole.symm ▸ hb)
  exact enclosingTag_eq_some_iff.mpr
    ⟨a.front, rfl, htag.append a.bracketFree, a.tag_whole, a.tag_ne_nil⟩

-- The attribute is given up if an odd number of double quotes stands in front of its name.
theorem enclosingAttribute_text (a : AtValue) :
    enclosingAttribute a.text =
      if a.opening.before.count Byte.doubleQuote % 2 = 0 then some ⟨a.tag, a.opening.name⟩
      else none := by
  rw [enclosingAttribute, a.enclosingTag_text]
  simp only [Option.bind_eq_bind, Option.bind_some, a.opening.openValue_render]

/-- A text ends where a value begins in one way only. -/
theorem text_injective : Function.Injective text := by
  intro a b h
  have htag := a.enclosingTag_text
  rw [h, b.enclosingTag_text] at htag
  obtain ⟨hname, hrender⟩ := EnclosingTag.mk.inj (Option.some.inj htag)
  rw [text, text, hname, hrender] at h
  exact AtValue.ext (List.append_cancel_right h) hname.symm
    (ValueOpening.render_injective hrender.symm)

end AtValue

-- The name of a tag goes as far as it can, so that the name of an attribute is not right behind it.
theorem exists_atValue {text : Text} {tag : EnclosingTag} (htag : enclosingTag text = some tag)
    {v : ValueOpening} (hv : v.render = tag.rest) :
    ∃ a : AtValue, a.text = text ∧ a.tag = tag.name ∧ a.opening = v := by
  obtain ⟨name, rest⟩ := tag
  obtain rfl : v.render = rest := hv
  obtain ⟨front, rfl, hfree, hname, hne⟩ := enclosingTag_eq_some_iff.mp htag
  have hspaced : EndsInSpace v.before := by
    refine v.spaced.resolve_left fun hnil => ?_
    obtain ⟨first, more, hfirst, hstart⟩ := v.isName.exists_cons
    have hbehind := not_isNameByte_behind_takeName (hname.symm ▸ hne)
    rw [hname, List.drop_left] at hbehind
    refine hbehind first ?_ (by simp [isNameByte, hstart])
    rw [ValueOpening.render, hnil, hfirst]
    rfl
  have hrest : BracketFree v.render := fun b hb => hfree b (List.mem_append_right _ hb)
  exact ⟨⟨front, name, v, hne, hname, hrest, hspaced⟩, rfl, rfl, rfl⟩

theorem exists_atValue_of_enclosingAttribute {text : Text} {found : EnclosingAttribute}
    (h : enclosingAttribute text = some found) : ∃ a : AtValue, a.text = text := by
  unfold enclosingAttribute at h
  simp only [Option.bind_eq_bind, Option.bind_eq_some_iff] at h
  obtain ⟨tag, htag, ⟨before, name⟩, hopen, -⟩ := h
  obtain ⟨v, hv, -⟩ := exists_render_of_openValue hopen
  obtain ⟨a, ha, -⟩ := exists_atValue htag hv
  exact ⟨a, ha⟩

/-- An attribute is found at the end of a text exactly when the text spells one there, with an even
number of double quotes in front of its name. A text spells one in a single way, and so does an
attribute list, so that it is the same wherever the name is looked for first. -/
theorem enclosingAttribute_iff_atValue :
    (∀ (text : Text) (found : EnclosingAttribute), enclosingAttribute text = some found ↔
      ∃ a : AtValue, a.text = text ∧ a.tag = found.tag ∧ a.opening.name = found.name ∧
        a.opening.before.count Byte.doubleQuote % 2 = 0) ∧
      Function.Injective AtValue.text ∧ Function.Injective ValueOpening.render := by
  refine ⟨fun text found => ⟨fun h => ?_, ?_⟩, AtValue.text_injective,
    ValueOpening.render_injective⟩
  · obtain ⟨a, rfl⟩ := exists_atValue_of_enclosingAttribute h
    rw [a.enclosingAttribute_text] at h
    split_ifs at h with heven
    obtain rfl := Option.some.inj h
    exact ⟨a, rfl, rfl, rfl, heven⟩
  · rintro ⟨a, rfl, htag, hname, heven⟩
    rw [a.enclosingAttribute_text, if_pos heven, htag, hname]

/-- Of two names with an equals sign behind them, the one at the end of the text is found. -/
theorem enclosingAttribute_iff_atValue_href :
    enclosingAttribute (utf8 "<g><use x= xlink:href = \"") =
      some ⟨utf8 "use", utf8 "xlink:href"⟩ := by
  set v : ValueOpening := ⟨utf8 " x= ", utf8 "xlink:href", .single, .single, [Byte.doubleQuote],
    by decide, .inr ⟨Byte.space, by decide, by decide⟩, .inr rfl⟩
  set a : AtValue := ⟨utf8 "<g>", utf8 "use", v, by decide, by decide, by decide,
    ⟨Byte.space, by decide, by decide⟩⟩
  exact (enclosingAttribute_iff_atValue.1 _ _).mpr ⟨a, rfl, rfl, rfl, by decide⟩

end SvgAssist.Markup
