import SvgAssist.Proofs.Markup.Events

/-!
# Edges

Every event begins at a `<` and ends behind a `>` (`edges_of_mem_eventsFrom`). No piece of more than
one byte ends behind a `<`, so that a scan that comes to a `<` at the end of a text reports the same
in front of it whatever is written there (`eventsFrom_append_of_scansThrough`).
-/

namespace SvgAssist.Markup

/-! ## Where a piece ends -/

-- A terminator that was found ends in its last byte.
theorem getElem?_of_pastFirst (terminator : Text) {b : UInt8} {skip size : Nat} {text : Text}
    (h : pastFirst (terminator ++ [b]) skip text = some size) : text[size - 1]? = some b := by
  obtain ⟨i, hi, rfl⟩ := Option.map_eq_some_iff.mp h
  obtain ⟨tail, htail⟩ := (Text.indexOf_eq_some_iff.mp hi).1
  have hlast : ((text.drop skip).drop i)[terminator.length]? = some b := by
    rw [← htail, List.append_assoc, List.singleton_append]
    simp
  rw [List.drop_drop, List.getElem?_drop] at hlast
  rwa [List.length_append, List.length_singleton, ← Nat.add_assoc, Nat.add_sub_cancel]

/-- The end of a start tag is at a `>`, or at the `<` that interrupts it. -/
def TagEnd.EndsIn (seen : Nat) (text : Text) : TagEnd → Prop
  | .closed _ size => ∃ i, size = seen + i + 1 ∧ text[i]? = some Byte.greater
  | .abandoned size => ∃ i, size = seen + i ∧ text[i]? = some Byte.less
  | .unterminated => True

-- One byte further on, the same end is one byte nearer.
theorem TagEnd.EndsIn.cons {seen : Nat} {rest : Text} {e : TagEnd} (h : e.EndsIn (seen + 1) rest)
    (b : UInt8) : e.EndsIn seen (b :: rest) := by
  cases e with
  | closed selfClosing size =>
    obtain ⟨i, rfl, hi⟩ := h
    exact ⟨i + 1, by omega, by rwa [List.getElem?_cons_succ]⟩
  | abandoned size =>
    obtain ⟨i, rfl, hi⟩ := h
    exact ⟨i + 1, by omega, by rwa [List.getElem?_cons_succ]⟩
  | unterminated => trivial

-- By induction on the text, in any state of the scan.
theorem tagEnd_endsIn (quote : Option UInt8) (slash : Bool) (seen : Nat) (text : Text) :
    (tagEnd quote slash seen text).EndsIn seen text := by
  induction text generalizing quote slash seen with
  | nil => trivial
  | cons b rest ih =>
    cases quote with
    | some q => exact (ih _ _ (seen + 1)).cons b
    | none =>
      rw [tagEnd]
      split_ifs with _ hgreater hless
      · exact (ih _ _ (seen + 1)).cons b
      · exact ⟨0, rfl, by rw [hgreater, List.getElem?_cons_zero]⟩
      · exact ⟨0, rfl, by rw [hless, List.getElem?_cons_zero]⟩
      · exact (ih _ _ (seen + 1)).cons b

/-- A piece ends behind a `>`. If it reports nothing, it may be a single byte, or end in front of
the `<` that interrupts it. -/
def Piece.EndsIn (text : Text) : Piece → Prop
  | .skipped size =>
    size = 1 ∨ text[size - 1]? = some Byte.greater ∨ text[size]? = some Byte.less
  | .found _ _ size => text[size - 1]? = some Byte.greater
  | .unterminated => True

theorem skipPast_endsIn (terminator : Text) (skip : Nat) (text : Text) :
    (skipPast (terminator ++ [Byte.greater]) skip text).EndsIn text := by
  unfold skipPast
  split
  · rename_i size hsize
    exact .inr (.inl (getElem?_of_pastFirst terminator hsize))
  · trivial

theorem comment_endsIn (text : Text) : (comment text).EndsIn text := by
  unfold comment
  split
  · rename_i size hsize
    exact getElem?_of_pastFirst (utf8 "--") hsize
  · trivial

theorem endTag_endsIn (text : Text) : (endTag text).EndsIn text := by
  unfold endTag
  split
  · rename_i size hsize
    exact getElem?_of_pastFirst [] hsize
  · trivial

-- A start tag that is interrupted has no event, so it need not end in a `>`.
theorem startTag_endsIn (text : Text) : (startTag text).EndsIn (Byte.less :: text) := by
  unfold startTag
  split
  · exact .inl rfl
  · have hend := tagEnd_endsIn none false 0 (text.drop (takeName text).length)
    -- The end is looked for behind the name, which has the `<` in front of it.
    have hat {i : Nat} {b : UInt8} (h : (text.drop (takeName text).length)[i]? = some b) :
        (Byte.less :: text)[1 + (takeName text).length + i]? = some b := by
      rwa [Nat.add_assoc, Nat.add_comm 1, List.getElem?_cons_succ, ← List.getElem?_drop]
    cases h : tagEnd none false 0 (text.drop (takeName text).length) with
    | closed selfClosing size =>
      obtain ⟨i, hi, hgreater⟩ := h ▸ hend
      have hsize : 1 + (takeName text).length + size - 1 = 1 + (takeName text).length + i := by
        omega
      cases selfClosing <;> exact (congrArg _ hsize).trans (hat hgreater)
    | abandoned size =>
      obtain ⟨i, hi, hless⟩ := h ▸ hend
      rw [Nat.zero_add] at hi
      exact .inr (.inr (hi ▸ hat hless))
    | unterminated => trivial

theorem construct_endsIn (rest : Text) :
    (construct (Byte.less :: rest)).EndsIn (Byte.less :: rest) := by
  cases rest with
  | nil =>
    rw [construct_single]
    exact .inl rfl
  | cons b more =>
    by_cases hbang : b = Byte.bang
    · subst hbang
      rw [construct_bang]
      split_ifs
      · exact comment_endsIn _
      · exact skipPast_endsIn (utf8 "]]") 9 _
      · exact skipPast_endsIn [] 2 _
    by_cases hquestion : b = Byte.question
    · subst hquestion
      exact skipPast_endsIn (utf8 "?") 2 _
    by_cases hslash : b = Byte.slash
    · subst hslash
      exact endTag_endsIn _
    rw [construct_other hbang hquestion hslash]
    exact startTag_endsIn (b :: more)

/-! ## Where an event begins and ends -/

-- Every event is a `<` up to a `>`.
theorem edges_of_mem_eventsFrom {offset : Nat} {text : Text} {e : Event}
    (h : e ∈ eventsFrom offset text) :
    text[e.start - offset]? = some Byte.less ∧
      text[e.stop - 1 - offset]? = some Byte.greater := by
  have hbounds := bounds_of_mem_eventsFrom h
  obtain ⟨i, rest, hstart, hdrop, tail, size, rfl, hstop, hconstruct⟩ := found_of_mem_eventsFrom h
  have hends := construct_endsIn tail
  rw [hconstruct] at hends
  have hfirst : e.start - offset = i + 0 := by omega
  have hlast : e.stop - 1 - offset = i + (size - 1) := by omega
  rw [hfirst, hlast, ← List.getElem?_drop, ← List.getElem?_drop, hdrop]
  exact ⟨rfl, hends⟩

/-! ## A `<` at the end -/

/-- The scan of a text comes to its end, with no construct left unterminated. -/
def scansThrough : Text → Bool
  | [] => true
  | b :: rest =>
    match piece b rest with
    | .unterminated => false
    | .skipped size => scansThrough (rest.drop (size - 1))
    | .found _ _ size => scansThrough (rest.drop (size - 1))
termination_by text => text.length
decreasing_by all_goals simp only [List.length_drop, List.length_cons]; omega

-- A piece of more than one byte does not end behind a `<`.
theorem Piece.EndsIn.size_ne {text : Text} (hne : text ≠ []) {p : Piece}
    (h : p.EndsIn (text ++ [Byte.less])) : p.size? ≠ some (text.length + 1) := by
  intro hsize
  have hpos := List.length_pos_iff.mpr hne
  have hlast : (text ++ [Byte.less])[text.length + 1 - 1]? = some Byte.less := by simp
  have hbehind : (text ++ [Byte.less])[text.length + 1]? = none := by simp
  cases p with
  | skipped size =>
    obtain rfl := Option.some.inj hsize
    rcases h with hone | hgreater | hless
    · omega
    · exact absurd (hlast.symm.trans hgreater) (by decide)
    · exact absurd (hbehind.symm.trans hless) (by decide)
  | found kind name size =>
    obtain rfl := Option.some.inj hsize
    exact absurd (hlast.symm.trans h) (by decide)
  | unterminated => exact absurd hsize (by simp [Piece.size?])

-- A piece that ends in a text with a `<` at its end does so in front of the `<`, and is the same in
-- every text that goes on there.
theorem piece_append_less {b : UInt8} {front : Text}
    (h : piece b (front ++ [Byte.less]) ≠ .unterminated) (tail : Text) :
    piece b (front ++ Byte.less :: tail) = piece b (front ++ [Byte.less]) ∧
      ∀ size, (piece b (front ++ [Byte.less])).size? = some size → size ≤ front.length + 1 := by
  by_cases hb : b = Byte.less
  · subst hb
    obtain ⟨second, more, hmore⟩ :=
      List.exists_cons_of_ne_nil (List.append_ne_nil_of_right_ne_nil front
        (List.cons_ne_nil Byte.less tail))
    have hcut : front ++ [Byte.less] = second :: more.take front.length := by
      rw [← List.take_succ_cons, ← hmore, List.take_length_add_append]
      rfl
    have hpiece (text : Text) : piece Byte.less text = construct (Byte.less :: text) := if_pos rfl
    rw [hpiece] at h
    have hends := construct_endsIn (front ++ [Byte.less])
    rw [hpiece, hpiece]
    obtain ⟨hsame, hle⟩ | ⟨hbreaks, -⟩ := (construct_take second more front.length).stays_or_breaks
    · rw [← hcut, ← hmore] at hsame
      rw [← hmore, ← hsame] at hle
      refine ⟨hsame.symm, fun size hsize => ?_⟩
      have hlimit := hle size hsize
      have hne : size ≠ front.length + 2 := by
        rintro rfl
        exact hends.size_ne (List.cons_ne_nil Byte.less front) hsize
      omega
    · exact absurd (hcut ▸ hbreaks) h
  · have hskip (text : Text) : piece b text = .skipped 1 := if_neg hb
    rw [hskip, hskip]
    refine ⟨rfl, fun size hsize => ?_⟩
    obtain rfl := Option.some.inj hsize
    exact Nat.le_add_left 1 _

theorem scansThrough_cons_iff {b : UInt8} {rest : Text} :
    scansThrough (b :: rest) ↔
      ∃ size, (piece b rest).size? = some size ∧ scansThrough (rest.drop (size - 1)) := by
  rw [scansThrough]
  cases piece b rest <;> simp [Piece.size?]

/-- Induction over what stands in front of a `<` that the scan comes to, piece by piece. Each piece
is the same whatever is written behind the `<`, and ends in front of it. -/
theorem scansThrough_induction {motive : Text → Prop} (nil : motive [])
    (cons : ∀ b front size,
      (∀ tail, piece b (front ++ Byte.less :: tail) = piece b (front ++ [Byte.less])) →
      (piece b (front ++ [Byte.less])).size? = some size → 0 < size → size ≤ front.length + 1 →
      motive (front.drop (size - 1)) → motive (b :: front))
    {front : Text} (h : scansThrough (front ++ [Byte.less])) : motive front := by
  induction hlen : front.length using Nat.strong_induction_on generalizing front with
  | h n ih =>
    subst hlen
    cases front with
    | nil => exact nil
    | cons b front =>
      rw [List.cons_append] at h
      obtain ⟨size, hsize, hrest⟩ := scansThrough_cons_iff.mp h
      have hpiece : piece b (front ++ [Byte.less]) ≠ .unterminated := by
        intro hnone
        rw [hnone] at hsize
        exact absurd hsize (by simp [Piece.size?])
      have hpos := (piece_fits b (front ++ [Byte.less])).pos size hsize
      have hle := (piece_append_less hpiece []).2 size hsize
      -- Behind the piece, less is left in front of the `<`.
      have hshort : (front.drop (size - 1)).length < (b :: front).length := by
        rw [List.length_drop, List.length_cons]
        omega
      rw [List.drop_append_of_le_length (by omega)] at hrest
      exact cons b front size (fun tail => (piece_append_less hpiece tail).1) hsize hpos hle
        (ih _ hshort hrest rfl)

def Piece.events (offset : Nat) : Piece → List Event
  | .found kind name size => [⟨kind, name, offset, offset + size⟩]
  | .skipped _ | .unterminated => []

-- A piece that ends comes first, and the scan goes on behind it.
theorem eventsFrom_of_size {b : UInt8} {rest : Text} {size : Nat}
    (h : (piece b rest).size? = some size) (offset : Nat) :
    eventsFrom offset (b :: rest) =
      (piece b rest).events offset ++ eventsFrom (offset + size) (rest.drop (size - 1)) := by
  rw [eventsFrom]
  cases hshape : piece b rest with
  | unterminated => simp [hshape, Piece.size?] at h
  | skipped n =>
    rw [hshape] at h
    obtain rfl := Option.some.inj h
    rfl
  | found kind name n =>
    rw [hshape] at h
    obtain rfl := Option.some.inj h
    rfl

-- A `<` at the very end is stepped over.
theorem eventsFrom_less (offset : Nat) : eventsFrom offset [Byte.less] = [] := by
  rw [eventsFrom, piece, if_pos rfl, construct_single]
  exact eventsFrom.eq_1 _

-- What is left behind a piece that ends in front of a place, counted from where the piece begins.
theorem drop_behind {b : UInt8} {front : Text} {size : Nat} (hpos : 0 < size)
    (hle : size ≤ front.length + 1) (offset : Nat) :
    (∀ rest, (front ++ rest).drop (size - 1) = front.drop (size - 1) ++ rest) ∧
      offset + size + (front.drop (size - 1)).length = offset + (b :: front).length := by
  refine ⟨fun rest => List.drop_append_of_le_length (by omega), ?_⟩
  rw [List.length_drop, List.length_cons]
  omega

/-- What is written behind a `<` leaves what is reported in front of it, when the scan comes to
it. -/
theorem eventsFrom_append_of_scansThrough {front : Text}
    (h : scansThrough (front ++ [Byte.less])) (offset : Nat) (tail : Text) :
    eventsFrom offset (front ++ Byte.less :: tail) =
      eventsFrom offset (front ++ [Byte.less]) ++
        eventsFrom (offset + front.length) (Byte.less :: tail) := by
  refine scansThrough_induction (motive := fun front => ∀ offset,
    eventsFrom offset (front ++ Byte.less :: tail) = eventsFrom offset (front ++ [Byte.less]) ++
      eventsFrom (offset + front.length) (Byte.less :: tail)) ?_ ?_ h offset
  · intro offset
    rw [List.nil_append, List.nil_append, eventsFrom_less, List.length_nil]
    rfl
  · intro b front size hsame hsize hpos hle ih offset
    obtain ⟨hdrop, hoffset⟩ := drop_behind (b := b) hpos hle offset
    rw [List.cons_append, List.cons_append, eventsFrom_of_size ((hsame tail).symm ▸ hsize),
      eventsFrom_of_size hsize, hdrop, hdrop, ih, hoffset, hsame, List.append_assoc]

end SvgAssist.Markup
