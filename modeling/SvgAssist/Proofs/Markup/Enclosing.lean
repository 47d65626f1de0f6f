import SvgAssist.Markup.Enclosing
import SvgAssist.Proofs.Markup.Piece

/-!
# Inside of a start tag

The start tag that a cursor is inside of begins at the last angle bracket
(`enclosingTag_eq_some_iff`), and goes on with what is typed there (`enclosingTag_append`).
-/

namespace SvgAssist.Markup

def BracketFree (text : Text) : Prop := ∀ b ∈ text, b ≠ Byte.less ∧ b ≠ Byte.greater

instance (text : Text) : Decidable (BracketFree text) := List.decidableBAll _ text

theorem BracketFree.append {a b : Text} (ha : BracketFree a) (hb : BracketFree b) :
    BracketFree (a ++ b) := by
  intro c hc
  rcases List.mem_append.mp hc with hc | hc
  · exact ha c hc
  · exact hb c hc

theorem bracketFree_of_isNameByte {text : Text} (h : ∀ b ∈ text, isNameByte b) :
    BracketFree text := by
  intro b hb
  have hname := h b hb
  constructor <;> rintro rfl <;> revert hname <;> decide

-- The walk back goes over what holds no bracket.
theorem enclosingTagBack_append {passed : Text} (hpassed : BracketFree passed)
    (after earlier : Text) :
    enclosingTagBack after (passed.reverse ++ earlier) =
      enclosingTagBack (passed ++ after) earlier := by
  induction passed generalizing earlier with
  | nil => rfl
  | cons b passed ih =>
    obtain ⟨hless, hgreater⟩ := hpassed b List.mem_cons_self
    have hrest : BracketFree passed := fun a ha => hpassed a (List.mem_cons_of_mem b ha)
    rw [List.reverse_cons, List.append_assoc, ih hrest, List.singleton_append, enclosingTagBack,
      if_neg hgreater, if_neg hless, List.cons_append]

-- A walk that finds a start tag has passed over the tag's name and what follows it.
theorem exists_of_enclosingTagBack {after earlier : Text} {tag : EnclosingTag}
    (h : enclosingTagBack after earlier = some tag) (hafter : BracketFree after) :
    ∃ front, earlier.reverse ++ after = front ++ Byte.less :: (tag.name ++ tag.rest) ∧
      BracketFree (tag.name ++ tag.rest) ∧ takeName (tag.name ++ tag.rest) = tag.name ∧
      tag.name ≠ [] := by
  induction earlier generalizing after with
  | nil => simp [enclosingTagBack] at h
  | cons b earlier ih =>
    rw [enclosingTagBack] at h
    split_ifs at h with hgreater hless
    · simp only at h
      split_ifs at h with hname
      obtain rfl := Option.some.inj h
      have hsplit := List.prefix_iff_eq_append.mp (isPrefix_takeName after)
      refine ⟨earlier.reverse, ?_, hsplit.symm ▸ hafter, by rw [hsplit], hname⟩
      rw [hsplit, hless, List.reverse_cons, List.append_assoc, List.singleton_append]
    · have hpassed : BracketFree (b :: after) := by
        intro a ha
        rcases List.mem_cons.mp ha with rfl | ha
        · exact ⟨hless, hgreater⟩
        · exact hafter a ha
      have hfound := ih h hpassed
      rwa [List.reverse_cons, List.append_assoc, List.singleton_append]

/-- The start tag that a cursor is inside of is the one that the last angle bracket begins. -/
theorem enclosingTag_eq_some_iff {text : Text} {tag : EnclosingTag} :
    enclosingTag text = some tag ↔
      ∃ front, text = front ++ Byte.less :: (tag.name ++ tag.rest) ∧
        BracketFree (tag.name ++ tag.rest) ∧ takeName (tag.name ++ tag.rest) = tag.name ∧
        tag.name ≠ [] := by
  constructor
  · intro h
    have hfound := exists_of_enclosingTagBack h (List.forall_mem_nil _)
    rwa [List.reverse_reverse, List.append_nil] at hfound
  · rintro ⟨front, rfl, hfree, hname, hne⟩
    have hback := enclosingTagBack_append hfree [] (Byte.less :: front.reverse)
    rw [List.append_nil] at hback
    rw [enclosingTag, List.reverse_append, List.reverse_cons, List.append_assoc,
      List.singleton_append, hback, enclosingTagBack, if_neg (by decide), if_pos rfl]
    simp only [hname, if_neg hne, List.drop_left]

-- What ends the text behind the name is not of the name.
theorem suffix_rest_of_enclosingTag {text : Text} {tag : EnclosingTag} {b : UInt8}
    (h : enclosingTag text = some tag) (hsuffix : [b] <:+ text) (hb : isNameByte b = false) :
    [b] <:+ tag.rest := by
  obtain ⟨front, rfl, -, hname, hne⟩ := enclosingTag_eq_some_iff.mp h
  have hpos := List.length_pos_iff.mpr hne
  have hinner : tag.name ++ tag.rest <:+ front ++ Byte.less :: (tag.name ++ tag.rest) :=
    (List.suffix_cons Byte.less _).trans (List.suffix_append front _)
  have hlast : [b] <:+ tag.name ++ tag.rest :=
    List.suffix_of_suffix_length_le hsuffix hinner
      (by rw [List.length_singleton, List.length_append]; omega)
  by_cases hrest : tag.rest = []
  · rw [hrest, List.append_nil] at hlast hname
    have hmem : b ∈ takeName tag.name := hname.symm ▸ hlast.mem List.mem_cons_self
    rw [isNameByte_of_mem_takeName hmem] at hb
    exact absurd hb (by decide)
  · exact List.suffix_of_suffix_length_le hlast (List.suffix_append _ _)
      (List.length_pos_iff.mpr hrest)

-- A name that ends before the text does is not made longer by what follows.
theorem takeName_append_of_ne {text : Text} (h : takeName text ≠ text) (more : Text) :
    takeName (text ++ more) = takeName text := by
  cases text with
  | nil => exact absurd rfl h
  | cons b rest =>
    by_cases hb : isNameStart b
    · simp only [takeName, hb, if_true, List.cons_append] at h ⊢
      -- The name ends before the text does, so that it cannot go on behind it.
      have hshort : (rest.takeWhile isNameByte).length ≠ rest.length := by
        intro hlen
        have hfront : rest.takeWhile isNameByte <+: rest := List.takeWhile_prefix isNameByte
        exact h (congrArg (b :: ·) (hfront.eq_of_length hlen))
      rw [List.takeWhile_append, if_neg hshort]
    · simp [takeName, hb]

/-- The start tag that a cursor is inside of goes on with what is typed there, when the cursor is
behind its name. -/
theorem enclosingTag_append {text more : Text} {tag : EnclosingTag}
    (h : enclosingTag text = some tag) (hrest : tag.rest ≠ []) (hmore : BracketFree more) :
    enclosingTag (text ++ more) = some ⟨tag.name, tag.rest ++ more⟩ := by
  obtain ⟨front, rfl, hfree, hname, hne⟩ := enclosingTag_eq_some_iff.mp h
  have hlonger : takeName (tag.name ++ tag.rest) ≠ tag.name ++ tag.rest := by
    rw [hname]
    simpa using hrest
  refine enclosingTag_eq_some_iff.mpr ⟨front, ?_, ?_, ?_, hne⟩
  · simp only [List.append_assoc, List.cons_append]
  · rw [← List.append_assoc]
    exact hfree.append hmore
  · rw [← List.append_assoc, takeName_append_of_ne hlonger, hname]

end SvgAssist.Markup
