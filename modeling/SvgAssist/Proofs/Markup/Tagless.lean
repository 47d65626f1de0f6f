import SvgAssist.Markup.Enclosing
import SvgAssist.Proofs.Markup.Edges
import SvgAssist.Proofs.Text.Lines

/-!
# Texts without tags

Looking backwards for the last tag finds none exactly if nowhere in the text a tag begins
(`precedingTag_eq_none_iff`). The scan then goes to the end of the text byte by byte and reports
nothing, while everything it reports of a text begins with such a place
(`beginsTag_of_mem_eventsFrom`).
-/

namespace SvgAssist.Markup

/-- A tag begins a text: the `<` of a start tag, an end tag, a declaration or an instruction, of
which the rest may be missing. -/
def beginsTag : Text → Bool
  | a :: b :: _ =>
    a == Byte.less && (b == Byte.slash || b == Byte.bang || b == Byte.question || isNameStart b)
  | _ => false

/-- Nowhere in a text a tag begins. -/
def Tagless (text : Text) : Prop := ∀ rest, rest <:+ text → beginsTag rest = false

theorem tagless_nil : Tagless [] := by
  intro rest h
  rw [List.suffix_nil.mp h]
  rfl

-- A text has no tag just when none begins at its first byte or behind it.
theorem tagless_cons_iff {b : UInt8} {text : Text} :
    Tagless (b :: text) ↔ beginsTag (b :: text) = false ∧ Tagless text := by
  unfold Tagless
  simp only [List.suffix_cons_iff]
  exact ⟨fun h => ⟨h _ (.inl rfl), fun rest hrest => h rest (.inr hrest)⟩,
    fun h rest hrest => hrest.elim (fun heq => heq ▸ h.1) (h.2 rest)⟩

theorem tagless_of_notMem {text : Text} (h : Byte.less ∉ text) : Tagless text := by
  intro rest hrest
  rcases rest with _ | ⟨a, _ | ⟨b, more⟩⟩
  · rfl
  · rfl
  have ha : a ≠ Byte.less := fun ha => h (hrest.mem (ha ▸ List.mem_cons_self))
  simp [beginsTag, ha]

-- A `<` that was just typed begins no tag.
theorem tagless_append_less {text : Text} : Tagless (text ++ [Byte.less]) ↔ Tagless text := by
  have hlast : beginsTag [Byte.less] = false := rfl
  induction text with
  | nil => simp [tagless_cons_iff, hlast]
  | cons b text ih =>
    have hhead : beginsTag (b :: (text ++ [Byte.less])) = beginsTag (b :: text) := by
      cases text with
      | nil => exact Bool.and_false _
      | cons c more => rfl
    rw [List.cons_append, tagless_cons_iff, tagless_cons_iff, hhead]
    exact and_congr_right fun _ => ih

/-! ## Looking backwards -/

-- One step of the walk looks at the two bytes that would begin a tag.
theorem precedingTagBack_cons_eq_none_iff {after earlier : Text} {b : UInt8} :
    precedingTagBack after (b :: earlier) = none ↔
      beginsTag (b :: after) = false ∧ precedingTagBack (b :: after) earlier = none := by
  conv_lhs => unfold precedingTagBack
  split
  · rename_i c rest
    split_ifs with hmark hname
    · have hbegins : beginsTag (Byte.less :: c :: rest) = true := by
        simp only [Bool.or_eq_true, decide_eq_true_eq] at hmark
        rcases hmark with (rfl | rfl) | rfl <;> rfl
      simp [hbegins]
    · have hbegins : beginsTag (Byte.less :: c :: rest) = true := by simp [beginsTag, hname]
      simp [hbegins]
    · have hnone : beginsTag (Byte.less :: c :: rest) = false := by simp_all [beginsTag]
      simp [hnone]
  · rename_i hother
    have hnone : beginsTag (b :: after) = false := by
      cases after with
      | nil => rfl
      | cons c rest =>
        have hb : b ≠ Byte.less := fun hb => hother c rest hb rfl
        simp [beginsTag, hb]
    simp [hnone]

-- The walk goes backwards over the text, and what is behind it has no tag.
theorem precedingTagBack_eq_none_iff {after earlier : Text} (hafter : Tagless after) :
    precedingTagBack after earlier = none ↔ Tagless (earlier.reverse ++ after) := by
  induction earlier generalizing after with
  | nil => simp [precedingTagBack, hafter]
  | cons b earlier ih =>
    rw [precedingTagBack_cons_eq_none_iff, List.reverse_cons, List.append_assoc,
      List.singleton_append]
    constructor
    · rintro ⟨hb, hback⟩
      exact (ih (tagless_cons_iff.mpr ⟨hb, hafter⟩)).mp hback
    · intro htext
      have hbehind : Tagless (b :: after) :=
        fun rest hrest => htext rest (hrest.trans (List.suffix_append _ _))
      exact ⟨(tagless_cons_iff.mp hbehind).1, (ih hbehind).mpr htext⟩

/-- No tag is found by looking backwards exactly if nowhere in the text one begins. -/
theorem precedingTag_eq_none_iff {text : Text} : precedingTag text = none ↔ Tagless text := by
  have htail : Tagless (Text.withoutTail [Byte.less] text) ↔ Tagless text := by
    by_cases h : [Byte.less] <:+ text
    · obtain ⟨front, rfl⟩ := h
      rw [Text.withoutTail_append, tagless_append_less]
    · rw [Text.withoutTail, if_neg (fun hp => h (List.isSuffixOf_iff_suffix.mp hp))]
  rw [precedingTag, precedingTagBack_eq_none_iff tagless_nil, List.reverse_reverse,
    List.append_nil, htail]

/-! ## Scanning forward -/

-- Where no tag begins, the scan steps over one byte.
theorem piece_of_not_beginsTag {b : UInt8} {rest : Text} (h : beginsTag (b :: rest) = false) :
    piece b rest = .skipped 1 := by
  by_cases hb : b = Byte.less
  · subst hb
    rw [piece, if_pos rfl]
    cases rest with
    | nil => exact construct_single
    | cons c more =>
      simp only [beginsTag, beq_self_eq_true, Bool.true_and, Bool.or_eq_false_iff,
        beq_eq_false_iff_ne] at h
      obtain ⟨⟨⟨hslash, hbang⟩, hquestion⟩, hname⟩ := h
      have hnone : takeName (c :: more) = [] := if_neg (by rw [hname]; decide)
      rw [construct_other hbang hquestion hslash, startTag, if_pos hnone]
  · exact if_neg hb

/-- A text without tags is scanned to its end, and nothing is reported. -/
theorem Tagless.scan {text : Text} (h : Tagless text) :
    scansThrough text ∧ ∀ offset, eventsFrom offset text = [] := by
  induction text with
  | nil => exact ⟨scansThrough.eq_1, fun offset => eventsFrom.eq_1 offset⟩
  | cons b rest ih =>
    obtain ⟨hb, hrest⟩ := tagless_cons_iff.mp h
    have hpiece := piece_of_not_beginsTag hb
    obtain ⟨hthrough, hevents⟩ := ih hrest
    constructor
    · rw [scansThrough, hpiece]
      exact hthrough
    · intro offset
      rw [eventsFrom, hpiece]
      exact hevents (offset + 1)

/-- All that a scan reports begins with a tag. -/
theorem beginsTag_of_mem_eventsFrom {offset : Nat} {text : Text} {e : Event}
    (h : e ∈ eventsFrom offset text) :
    ∃ i rest, e.start = offset + i ∧ text.drop i = rest ∧ beginsTag rest := by
  obtain ⟨i, rest, hstart, hdrop, tail, size, rfl, -, hconstruct⟩ := found_of_mem_eventsFrom h
  refine ⟨i, _, hstart, hdrop, ?_⟩
  by_contra hnone
  have hpiece := piece_of_not_beginsTag (Bool.not_eq_true _ ▸ hnone)
  rw [piece, if_pos rfl, hconstruct] at hpiece
  cases hpiece

-- A cut behind the first two bytes of a tag keeps where it begins.
theorem not_tagless_take {text : Text} {e : Event} (he : e ∈ eventsFrom 0 text) {n : Nat}
    (hn : e.start + 1 < n) : ¬ Tagless (text.take n) := by
  obtain ⟨i, rest, hi, hdrop, hbegins⟩ := beginsTag_of_mem_eventsFrom he
  intro htagless
  have hcut : (text.take n).drop i = rest.take (n - i) := by rw [List.drop_take, hdrop]
  have hnone := htagless _ (hcut ▸ List.drop_suffix i _)
  obtain ⟨k, hk⟩ : ∃ k, n - i = k + 2 := ⟨n - i - 2, by omega⟩
  have hsame : beginsTag (rest.take (k + 2)) = beginsTag rest := by
    rcases rest with _ | ⟨a, _ | ⟨b, more⟩⟩ <;> rfl
  rw [hk, hsame, hbegins] at hnone
  cases hnone

end SvgAssist.Markup
