import SvgAssist.Proofs.Markup.Value

/-!
# Quotes in a start tag

The scan for the end of a start tag knows double and single quotes, and a value goes on to the next
quote of its own kind (`openQuote`, `tagEnd_append_of_bracketFree`). What encloses a cursor is found
by counting double quotes. Double quotes inside of values in single quotes are counted too, so that
the two agree about the place of a name only in some texts (`quote_test_agrees_iff`).
-/

namespace SvgAssist.Markup

def quoteBehind (quote : Option UInt8) (b : UInt8) : Option UInt8 :=
  match quote with
  | some q => if b = q then none else some q
  | none => if b = Byte.doubleQuote || b = Byte.singleQuote then some b else none

def openQuote (attributes : Text) : Option UInt8 := attributes.foldl quoteBehind none

/-- The scan for the end of a start tag goes over bytes that are no angle brackets, and knows behind
them which quote is open. -/
theorem tagEnd_append_of_bracketFree {front : Text} (hfront : BracketFree front)
    (quote : Option UInt8) (slash : Bool) (seen : Nat) (rest : Text) :
    ∃ slash', tagEnd quote slash seen (front ++ rest) =
      tagEnd (front.foldl quoteBehind quote) slash' (seen + front.length) rest := by
  induction front generalizing quote slash seen with
  | nil => exact ⟨slash, rfl⟩
  | cons b front ih =>
    obtain ⟨hless, hgreater⟩ := hfront b List.mem_cons_self
    have hrest : BracketFree front := fun a ha => hfront a (List.mem_cons_of_mem b ha)
    have hlen : seen + (b :: front).length = seen + 1 + front.length := by
      rw [List.length_cons]
      omega
    rw [List.cons_append, List.foldl_cons, hlen]
    cases quote with
    | some q => exact ih hrest _ _ _
    | none =>
      rw [tagEnd]
      by_cases hquote : b = Byte.doubleQuote || b = Byte.singleQuote
      · rw [if_pos hquote]
        have hopen : quoteBehind none b = some b := if_pos hquote
        rw [hopen]
        exact ih hrest _ _ _
      · rw [if_neg hquote, if_neg hgreater, if_neg hless]
        have hclosed : quoteBehind none b = none := if_neg hquote
        rw [hclosed]
        exact ih hrest _ _ _

/-- No quote is open where a `>` would end the start tag. -/
theorem openQuote_eq_none_iff {attributes : Text} (h : BracketFree attributes) :
    openQuote attributes = none ↔ ∃ selfClosing,
      tagEnd none false 0 (attributes ++ [Byte.greater]) =
        .closed selfClosing (attributes.length + 1) := by
  obtain ⟨slash, hend⟩ := tagEnd_append_of_bracketFree h none false 0 [Byte.greater]
  rw [hend, Nat.zero_add]
  show attributes.foldl quoteBehind none = none ↔ _
  cases attributes.foldl quoteBehind none with
  | none => exact iff_of_true rfl ⟨slash, rfl⟩
  | some q =>
    refine iff_of_false (by simp) ?_
    rintro ⟨selfClosing, hclosed⟩
    -- In the value the `>` is passed over, so that the tag ends behind it if at all.
    rw [tagEnd] at hclosed
    exact absurd (bounds_of_tagEnd_closed hclosed).1 (lt_irrefl _)

/-! ## Counting double quotes -/

/-- The double quotes inside of values in single quotes, when `quote` is open in front. -/
def strayQuotes (quote : Option UInt8) : Text → Nat
  | [] => 0
  | b :: rest =>
    (if quote = some Byte.singleQuote ∧ b = Byte.doubleQuote then 1 else 0) +
      strayQuotes (quoteBehind quote b) rest

/-- One for a value in double quotes that is not ended yet. -/
def unended (quote : Option UInt8) : Nat := if quote = some Byte.doubleQuote then 1 else 0

def IsQuote (quote : Option UInt8) : Prop :=
  quote = none ∨ quote = some Byte.doubleQuote ∨ quote = some Byte.singleQuote

theorem singleQuote_ne_doubleQuote : Byte.singleQuote ≠ Byte.doubleQuote := by decide

theorem IsQuote.behind {quote : Option UInt8} (h : IsQuote quote) (b : UInt8) :
    IsQuote (quoteBehind quote b) := by
  rcases h with rfl | rfl | rfl <;> simp only [quoteBehind, IsQuote] <;> split_ifs <;> simp_all

theorem isQuote_openQuote (attributes : Text) : IsQuote (openQuote attributes) :=
  List.foldlRecOn attributes quoteBehind (.inl rfl) fun _ h b _ => IsQuote.behind h b

-- A double quote begins a value, or ends one, or is inside of one in single quotes.
theorem even_of_quoteBehind {quote : Option UInt8} (h : IsQuote quote) (b : UInt8) :
    ((if b = Byte.doubleQuote then 1 else 0) +
        (if quote = some Byte.singleQuote ∧ b = Byte.doubleQuote then 1 else 0) +
        unended quote + unended (quoteBehind quote b)) % 2 = 0 := by
  by_cases hdouble : b = Byte.doubleQuote
  · subst hdouble
    rcases h with rfl | rfl | rfl <;> decide
  by_cases hsingle : b = Byte.singleQuote
  · subst hsingle
    rcases h with rfl | rfl | rfl <;> decide
  · rcases h with rfl | rfl | rfl <;>
      simp [quoteBehind, unended, hdouble, hsingle, singleQuote_ne_doubleQuote]

/-- By induction on the text: apart from the stray ones, double quotes open and end values in turn.
-/
theorem even_count_add {quote : Option UInt8} (h : IsQuote quote) (text : Text) :
    (text.count Byte.doubleQuote + strayQuotes quote text + unended quote +
      unended (text.foldl quoteBehind quote)) % 2 = 0 := by
  induction text generalizing quote with
  | nil =>
    rw [List.count_nil, List.foldl_nil, strayQuotes]
    omega
  | cons b rest ih =>
    have hstep := even_of_quoteBehind h b
    have hrest := ih (h.behind b)
    rw [List.count_cons, List.foldl_cons, strayQuotes]
    simp only [beq_iff_eq]
    omega

-- In front of a list no quote is open, so only the one at its end is left over.
theorem even_count_iff (attributes : Text) :
    attributes.count Byte.doubleQuote % 2 = 0 ↔
      (strayQuotes none attributes % 2 = 0 ↔ openQuote attributes ≠ some Byte.doubleQuote) := by
  have hsum : (attributes.count Byte.doubleQuote + strayQuotes none attributes + 0 +
      unended (openQuote attributes)) % 2 = 0 := even_count_add (.inl rfl) attributes
  unfold unended at hsum
  by_cases hopen : openQuote attributes = some Byte.doubleQuote
  · rw [if_pos hopen] at hsum
    simp only [hopen, ne_eq, not_true_eq_false, iff_false]
    omega
  · rw [if_neg hopen] at hsum
    simp only [hopen, ne_eq, not_false_eq_true, iff_true]
    omega

/-! ## The two ways to tell where a name stands -/

/-- At the end of a text where a value begins inside of a start tag, no attribute is found but the
one whose name stands there. It is to be found when its name is outside of all quoted values, as the
scan for the end of the tag knows them. This is so exactly if the values in single quotes hold an
even number of double quotes, or an odd number when the name is inside of such a value itself. -/
theorem quote_test_agrees_iff {text : Text} {tag : EnclosingTag}
    (htag : enclosingTag text = some tag) {v : ValueOpening} (hv : v.render = tag.rest) :
    (openQuote v.before = none ↔ ∃ selfClosing,
      tagEnd none false 0 (v.before ++ [Byte.greater]) =
        .closed selfClosing (v.before.length + 1)) ∧
    (∀ found, enclosingAttribute text = some found → found = ⟨tag.name, v.name⟩) ∧
    ((enclosingAttribute text = some ⟨tag.name, v.name⟩ ↔ openQuote v.before = none) ↔
      (strayQuotes none v.before % 2 = 0 ↔ openQuote v.before ≠ some Byte.singleQuote)) := by
  obtain ⟨a, rfl, hname, rfl⟩ := exists_atValue htag hv
  have hbefore : BracketFree a.opening.before := by
    intro b hb
    exact a.bracketFree b (List.mem_append_left _ hb)
  have hfound := a.enclosingAttribute_text
  rw [hname] at hfound
  refine ⟨openQuote_eq_none_iff hbefore, fun found h => ?_, ?_⟩
  · rw [hfound] at h
    split_ifs at h
    exact (Option.some.inj h).symm
  · have hsuccess : enclosingAttribute a.text = some ⟨tag.name, a.opening.name⟩ ↔
        a.opening.before.count Byte.doubleQuote % 2 = 0 := by
      rw [hfound]
      split_ifs with heven <;> simp [heven]
    rw [hsuccess, even_count_iff]
    rcases isQuote_openQuote a.opening.before with hopen | hopen | hopen <;> rw [hopen]
    · simp
    · simp [singleQuote_ne_doubleQuote.symm]
    · simp [singleQuote_ne_doubleQuote]

/-- An apostrophe in double quotes is no quote. -/
theorem quote_test_agrees_apostrophe :
    let text := utf8 "<a b=\"it's\" c = "
    let v : ValueOpening := ⟨utf8 " b=\"it's\" ", utf8 "c", .single, .single, [], by decide,
      .inr ⟨Byte.space, by decide, by decide⟩, .inl rfl⟩
    enclosingTag text = some ⟨utf8 "a", v.render⟩ ∧ strayQuotes none v.before = 0 ∧
      openQuote v.before = none ∧ enclosingAttribute text = some ⟨utf8 "a", utf8 "c"⟩ := by
  intro text v
  have htag : enclosingTag text = some ⟨utf8 "a", v.render⟩ := by decide
  have hstray : strayQuotes none v.before = 0 := by decide
  have hopen : openQuote v.before = none := by decide
  have hexact := (quote_test_agrees_iff htag rfl).2.2
  rw [hstray, hopen] at hexact
  exact ⟨htag, hstray, hopen, (hexact.mpr (by decide)).mpr rfl⟩

/-- A double quote in single quotes hides the attribute behind it, and a single quote does not hide
the one in its value. -/
theorem quote_test_disagrees :
    (∃ v : ValueOpening, enclosingTag (utf8 "<a b='\"' c=") = some ⟨utf8 "a", v.render⟩ ∧
      v.name = utf8 "c" ∧ openQuote v.before = none ∧
      enclosingAttribute (utf8 "<a b='\"' c=") = none) ∧
    ∃ v : ValueOpening, enclosingTag (utf8 "<a b=' c=") = some ⟨utf8 "a", v.render⟩ ∧
      v.name = utf8 "c" ∧ openQuote v.before = some Byte.singleQuote ∧
      enclosingAttribute (utf8 "<a b=' c=") = some ⟨utf8 "a", utf8 "c"⟩ := by
  constructor
  · refine ⟨⟨utf8 " b='\"' ", utf8 "c", .empty, .empty, [], by decide,
      .inr ⟨Byte.space, by decide, by decide⟩, .inl rfl⟩, ?_, rfl, ?_, ?_⟩ <;> decide
  · refine ⟨⟨utf8 " b=' ", utf8 "c", .empty, .empty, [], by decide,
      .inr ⟨Byte.space, by decide, by decide⟩, .inl rfl⟩, ?_, rfl, ?_, ?_⟩ <;> decide

end SvgAssist.Markup
