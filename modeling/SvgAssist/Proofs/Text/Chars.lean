import SvgAssist.Text.Char
import SvgAssist.Proofs.Text.Lines

/-!
# Characters

Every text falls into characters, and one that is cut off between two of them into those before the
cut (`chars_take`). A character begins at every ASCII byte (`chars_append_ascii`). None goes on over
a newline, so that a place between two characters of a text is one between two characters of its
line (`Boundary.line`).
-/

namespace SvgAssist.Text

theorem total_cons (n : Nat) (ns : List Nat) : total (n :: ns) = n + total ns := rfl

theorem total_append (a b : List Nat) : total (a ++ b) = total a + total b := by
  induction a with
  | nil => exact (Nat.zero_add _).symm
  | cons n a ih => rw [List.cons_append, total_cons, total_cons, ih, Nat.add_assoc]

section

variable (f : Decoded → Nat) {ds : List Decoded}

theorem total_take_le_total (ds : List Decoded) (k : Nat) :
    total ((ds.take k).map f) ≤ total (ds.map f) := by
  have hsplit : total (ds.map f) = total ((ds.take k).map f) + total ((ds.drop k).map f) := by
    rw [← total_append, ← List.map_append, List.take_append_drop]
  rw [hsplit]
  exact Nat.le_add_right _ _

theorem total_take_le {j k : Nat} (h : k ≤ j) :
    total ((ds.take k).map f) ≤ total ((ds.take j).map f) := by
  rw [← Nat.min_eq_left h, ← List.take_take]
  exact total_take_le_total f (ds.take j) k

theorem total_take_succ {d : Decoded} {k : Nat} (h : ds[k]? = some d) :
    total ((ds.take (k + 1)).map f) = total ((ds.take k).map f) + f d := by
  rw [List.take_add_one, h, Option.toList_some, List.map_append, total_append]
  rfl

end

/-! ## Characters -/

-- Induction on the characters of a text: over its first byte and what is left behind the character
-- that begins there.
theorem chars_induction {motive : Text → Prop} (nil : motive [])
    (cons : ∀ b rest, motive (rest.drop ((decodeHead b rest).width - 1)) → motive (b :: rest))
    (text : Text) : motive text := by
  induction hlen : text.length using Nat.strong_induction_on generalizing text with
  | h n ih =>
    subst hlen
    cases text with
    | nil => exact nil
    | cons b rest =>
      refine cons b rest (ih _ ?_ _ rfl)
      simp only [List.length_drop, List.length_cons]
      omega

-- The characters found so far stand in front of those that follow.
theorem charsFrom_eq_append (found : List Decoded) (text : Text) :
    charsFrom found text = found.reverse ++ chars text := by
  induction text using chars_induction generalizing found with
  | nil => simp [chars, charsFrom]
  | cons b rest ih =>
    rw [chars, charsFrom, charsFrom, ih, ih [_], List.reverse_cons, List.append_assoc]
    rfl

theorem chars_nil : chars [] = [] := by simp [chars, charsFrom]

theorem chars_cons (b : UInt8) (rest : Text) :
    chars (b :: rest) =
      decodeHead b rest :: chars (rest.drop ((decodeHead b rest).width - 1)) := by
  rw [chars, charsFrom, charsFrom_eq_append]
  rfl

-- A character takes at least its leading byte and no more than there is.
theorem width_decodeHead (lead : UInt8) (rest : Text) :
    0 < (decodeHead lead rest).width ∧ (decodeHead lead rest).width ≤ rest.length + 1 := by
  unfold decodeHead
  split_ifs
  · simp
  all_goals try split
  all_goals try split_ifs
  all_goals simp [Decoded.bad]

-- A character that would take more bytes than there are was not read.
theorem eq_bad_of_width_le {good : Bool} {d : Decoded} {limit : Nat}
    (h : (if good then d else .bad).width ≤ limit) (hlimit : limit < d.width) :
    .bad = if good then d else .bad := by
  cases good with
  | true => exact absurd h (Nat.not_le.mpr hlimit)
  | false => rfl

-- A character is read from its own bytes, and a byte that begins none begins none in fewer bytes
-- either.
theorem decodeHead_take (lead : UInt8) (rest : Text) {c : Nat}
    (h : (decodeHead lead rest).width ≤ c + 1) :
    decodeHead lead (rest.take c) = decodeHead lead rest := by
  by_cases hshort : rest.length ≤ c
  · rw [List.take_of_length_le hshort]
  unfold decodeHead at h ⊢
  -- The leading byte says how many bytes are looked at; the cut is among them or behind them.
  split_ifs at h ⊢ with hone htwo hthree hfour
  · rfl
  · rcases rest with _ | ⟨x, rest⟩
    · exact absurd (Nat.zero_le c) hshort
    rcases c with _ | c
    · exact eq_bad_of_width_le h (by simp)
    · rfl
  · rcases rest with _ | ⟨x, _ | ⟨y, rest⟩⟩
    · exact absurd (Nat.zero_le c) hshort
    · obtain rfl : c = 0 := by simpa using hshort
      rfl
    rcases c with _ | _ | c
    · exact eq_bad_of_width_le h (by simp)
    · exact eq_bad_of_width_le h (by simp)
    · rfl
  · rcases rest with _ | ⟨x, _ | ⟨y, _ | ⟨z, rest⟩⟩⟩
    · exact absurd (Nat.zero_le c) hshort
    · obtain rfl : c = 0 := by simpa using hshort
      rfl
    · rcases c with _ | _ | c
      · rfl
      · rfl
      · simp at hshort
    rcases c with _ | _ | _ | c
    · exact eq_bad_of_width_le h (by simp)
    · exact eq_bad_of_width_le h (by simp)
    · exact eq_bad_of_width_le h (by simp)
    · rfl
  · rfl

-- The characters of a text take all of its bytes.
theorem total_width_chars (text : Text) : total ((chars text).map (·.width)) = text.length := by
  induction text using chars_induction with
  | nil => simp [chars_nil, total]
  | cons b rest ih =>
    have hwidth := width_decodeHead b rest
    rw [chars_cons, List.map_cons, total_cons, ih, List.length_drop, List.length_cons]
    omega

/-! ## Boundaries -/

/-- An offset between two characters of a text, or at one of its ends. -/
def Boundary (text : Text) (o : Nat) : Prop :=
  ∃ k, total (((chars text).take k).map (·.width)) = o

-- The first characters of a text that is cut off behind them.
theorem take_chars_take {text : Text} {k c : Nat}
    (h : total (((chars text).take k).map (·.width)) ≤ c) :
    (chars (text.take c)).take k = (chars text).take k := by
  induction k generalizing text c with
  | zero => rw [List.take_zero, List.take_zero]
  | succ k ih =>
    cases text with
    | nil => rw [List.take_nil]
    | cons b rest =>
      have hwidth := width_decodeHead b rest
      rw [chars_cons, List.take_succ_cons, List.map_cons, total_cons] at h
      obtain ⟨c, rfl⟩ : ∃ n, c = n + 1 := ⟨c - 1, by omega⟩
      have hhead := decodeHead_take b rest (c := c) (by omega)
      rw [List.take_succ_cons, chars_cons, chars_cons, hhead, List.take_succ_cons,
        List.take_succ_cons, List.drop_take, ih (by omega)]

theorem Boundary.take {text : Text} {o c : Nat} (h : Boundary text o) (hle : o ≤ c) :
    Boundary (text.take c) o := by
  obtain ⟨k, rfl⟩ := h
  exact ⟨k, by rw [take_chars_take hle]⟩

/-- The characters of a text that is cut off between two of them. -/
theorem chars_take (text : Text) (k : Nat) :
    chars (text.take (total (((chars text).take k).map (·.width)))) = (chars text).take k := by
  induction k generalizing text with
  | zero =>
    rw [List.take_zero]
    exact chars_nil
  | succ k ih =>
    cases text with
    | nil => rw [List.take_nil, chars_nil, List.take_nil]
    | cons b rest =>
      have hwidth := width_decodeHead b rest
      set w := (decodeHead b rest).width with hw
      rw [chars_cons, List.take_succ_cons, List.map_cons, total_cons, ← hw]
      set o := total (((chars (rest.drop (w - 1))).take k).map (·.width)) with ho
      -- The cut comes behind the first character, which is therefore read as before.
      have hsum : w + o = w - 1 + o + 1 := by omega
      have hhead := decodeHead_take b rest (c := w - 1 + o) (by omega)
      rw [hsum, List.take_succ_cons, chars_cons, hhead, ← hw, List.drop_take,
        Nat.add_sub_cancel_left, ih]

/-! ## Bytes that continue a character -/

-- What may follow the leading byte of a longer character is always a byte that continues one.
theorem isTail_of_isSecond {lead b : UInt8} (h : isSecond lead b) : isTail b := by
  have hbounds : 0x80 ≤ (secondBounds lead).1 ∧ (secondBounds lead).2 ≤ 0xbf := by
    unfold secondBounds
    split_ifs <;> decide
  simp only [isSecond, isTail, Bool.and_eq_true, decide_eq_true_eq] at h ⊢
  exact ⟨UInt8.le_trans hbounds.1 h.1, UInt8.le_trans h.2 hbounds.2⟩

-- A byte that continues a character begins none.
theorem decodeHead_of_isTail {b : UInt8} (h : isTail b) (rest : Text) :
    decodeHead b rest = .bad := by
  simp only [isTail, Bool.and_eq_true, decide_eq_true_eq] at h
  have hone : ¬ b < 0x80 := by grind
  have htwo : ¬ (0xc2 ≤ b && b ≤ 0xdf) := by grind
  have hthree : ¬ (0xe0 ≤ b && b ≤ 0xef) := by grind
  have hfour : ¬ (0xf0 ≤ b && b ≤ 0xf4) := by grind
  unfold decodeHead
  rw [if_neg hone, if_neg htwo, if_neg hthree, if_neg hfour]

-- A character goes on with bytes that continue one.
theorem isTail_of_mem_char {lead : UInt8} {rest : Text} {x : UInt8}
    (hx : x ∈ rest.take ((decodeHead lead rest).width - 1)) : isTail x := by
  have hone {d : Decoded} (hd : d.width ≤ 1) : x ∉ rest.take (d.width - 1) := by
    rw [Nat.sub_eq_zero_of_le hd, List.take_zero]
    exact List.not_mem_nil
  unfold decodeHead at hx
  split_ifs at hx
  · exact absurd hx (hone le_rfl)
  · rcases rest with _ | ⟨a, rest⟩
    · simp at hx
    · simp only at hx
      split_ifs at hx with hgood
      · obtain rfl : x = a := by simpa using hx
        exact hgood
      · exact absurd hx (hone le_rfl)
  · rcases rest with _ | ⟨a, _ | ⟨b, rest⟩⟩
    · simp at hx
    · exact absurd hx (hone le_rfl)
    · simp only at hx
      split_ifs at hx with hgood
      · rw [Bool.and_eq_true] at hgood
        have ha := isTail_of_isSecond hgood.1
        simp only [Nat.add_one_sub_one, List.take_succ_cons, List.take_zero, List.mem_cons,
          List.not_mem_nil, or_false] at hx
        rcases hx with rfl | rfl
        · exact ha
        · exact hgood.2
      · exact absurd hx (hone le_rfl)
  · rcases rest with _ | ⟨a, _ | ⟨b, _ | ⟨c, rest⟩⟩⟩
    · simp at hx
    · exact absurd hx (hone le_rfl)
    · exact absurd hx (hone le_rfl)
    · simp only at hx
      split_ifs at hx with hgood
      · rw [Bool.and_eq_true, Bool.and_eq_true] at hgood
        have ha := isTail_of_isSecond hgood.1.1
        simp only [Nat.add_one_sub_one, List.take_succ_cons, List.take_zero, List.mem_cons,
          List.not_mem_nil, or_false] at hx
        rcases hx with rfl | rfl | rfl
        · exact ha
        · exact hgood.1.2
        · exact hgood.2
      · exact absurd hx (hone le_rfl)
  · exact absurd hx (hone le_rfl)

/-! ## ASCII bytes -/

-- No character goes on over an ASCII byte.
theorem decodeHead_append_ascii {b : UInt8} (hb : b < 0x80) (lead : UInt8) (rest tail : Text) :
    decodeHead lead (rest ++ b :: tail) = decodeHead lead rest := by
  have htail : isTail b = false := by
    have : ¬ 0x80 ≤ b := UInt8.not_le.mpr hb
    simp [isTail, this]
  have hsecond : isSecond lead b = false :=
    Bool.eq_false_iff.mpr fun h => by simp [isTail_of_isSecond h] at htail
  unfold decodeHead
  -- Where the byte is looked at it is refused, as an absent byte is.
  split_ifs
  · rfl
  · cases rest with
    | nil => exact if_neg (by rw [htail]; exact Bool.false_ne_true)
    | cons x rest => rfl
  · rcases rest with _ | ⟨x, _ | ⟨y, rest⟩⟩
    · cases tail <;> simp [hsecond]
    · simp [htail]
    · rfl
  · rcases rest with _ | ⟨x, _ | ⟨y, _ | ⟨z, rest⟩⟩⟩
    · rcases tail with _ | ⟨x, _ | ⟨y, tail⟩⟩ <;> simp [hsecond]
    · cases tail <;> simp [htail]
    · simp [htail]
    · rfl
  · rfl

/-- A character begins at every ASCII byte. -/
theorem chars_append_ascii {b : UInt8} (hb : b < 0x80) (front tail : Text) :
    chars (front ++ b :: tail) = chars front ++ chars (b :: tail) := by
  induction front using chars_induction with
  | nil => rw [chars_nil, List.nil_append, List.nil_append]
  | cons lead rest ih =>
    have hwidth := width_decodeHead lead rest
    have hdrop : (rest ++ b :: tail).drop ((decodeHead lead rest).width - 1) =
        rest.drop ((decodeHead lead rest).width - 1) ++ b :: tail :=
      List.drop_append_of_le_length (by omega)
    rw [List.cons_append, chars_cons, chars_cons lead rest, decodeHead_append_ascii hb, hdrop, ih,
      List.cons_append]

theorem chars_cons_ascii {b : UInt8} (hb : b < 0x80) (rest : Text) :
    chars (b :: rest) = ⟨Char.ofNat b.toNat, 1⟩ :: chars rest := by
  have hhead : decodeHead b rest = ⟨Char.ofNat b.toNat, 1⟩ := if_pos hb
  rw [chars_cons, hhead, Nat.sub_self, List.drop_zero]

/-- ASCII bytes are characters of their own, whatever stands in front of them. -/
theorem chars_append_of_ascii (front : Text) {tail : Text} (htail : ∀ b ∈ tail, b < 0x80) :
    chars (front ++ tail) = chars front ++ tail.map fun b => ⟨Char.ofNat b.toNat, 1⟩ := by
  induction tail generalizing front with
  | nil => rw [List.append_nil, List.map_nil, List.append_nil]
  | cons b tail ih =>
    have hb := htail b List.mem_cons_self
    have hrest := ih [] fun a ha => htail a (List.mem_cons_of_mem b ha)
    rw [List.nil_append, chars_nil, List.nil_append] at hrest
    rw [chars_append_ascii hb, chars_cons_ascii hb, hrest, List.map_cons]

/-- ASCII characters, none of which ends a line. -/
def Plain (text : Text) : Prop :=
  ∀ b ∈ text, b < 0x80 ∧ b ≠ Byte.newline ∧ b ≠ Byte.carriageReturn

instance (text : Text) : Decidable (Plain text) := List.decidableBAll _ text

namespace Plain

variable {a b : Text}

theorem append (ha : Plain a) (hb : Plain b) : Plain (a ++ b) := by
  intro c hc
  rcases List.mem_append.mp hc with hc | hc
  · exact ha c hc
  · exact hb c hc

theorem take (h : Plain a) (n : Nat) : Plain (a.take n) :=
  fun b hb => h b (List.mem_of_mem_take hb)

theorem ascii (h : Plain a) : ∀ b ∈ a, b < 0x80 := fun b hb => (h b hb).1

theorem newline_notMem (h : Plain a) : Byte.newline ∉ a := fun hmem => (h _ hmem).2.1 rfl

end Plain

theorem boundary_length (text : Text) : Boundary text text.length :=
  ⟨(chars text).length, by rw [List.take_length, total_width_chars]⟩

-- An ASCII byte is a character of its own, so one character ends in front of it and the next begins
-- behind it.
theorem Boundary.before_ascii {text : Text} {o : Nat} {b : UInt8} (h : text[o]? = some b)
    (hb : b < 0x80) : Boundary text o := by
  obtain ⟨hlen, rfl⟩ := List.getElem?_eq_some_iff.mp h
  have hchars := chars_append_ascii hb (text.take o) (text.drop (o + 1))
  rw [← List.drop_eq_getElem_cons hlen, List.take_append_drop] at hchars
  refine ⟨(chars (text.take o)).length, ?_⟩
  rw [hchars, List.take_left, total_width_chars, List.length_take, Nat.min_eq_left hlen.le]

theorem Boundary.behind_ascii {text : Text} {o : Nat} {b : UInt8} (h : text[o]? = some b)
    (hb : b < 0x80) : Boundary text (o + 1) := by
  obtain ⟨hlen, rfl⟩ := List.getElem?_eq_some_iff.mp h
  have hchars := chars_append_ascii hb (text.take o) (text.drop (o + 1))
  rw [← List.drop_eq_getElem_cons hlen, List.take_append_drop, List.drop_eq_getElem_cons hlen,
    chars_cons_ascii hb] at hchars
  refine ⟨(chars (text.take o)).length + 1, ?_⟩
  rw [hchars, List.take_length_add_append, List.take_succ_cons, List.take_zero, List.map_append,
    total_append, total_width_chars, List.length_take, Nat.min_eq_left hlen.le]
  rfl

/-! ## Boundaries and lines -/

-- A newline keeps what stands in front of it from being joined with what stands behind.
theorem chars_append_newline (front tail : Text) :
    chars (front ++ Byte.newline :: tail) = chars (front ++ [Byte.newline]) ++ chars tail := by
  have hascii : Byte.newline < 0x80 := by decide
  rw [chars_append_ascii hascii, chars_append_ascii hascii, chars_cons_ascii hascii,
    chars_cons_ascii hascii, chars_nil, List.append_assoc, List.singleton_append]

theorem chars_append_of_endsLine {front : Text} (hfront : EndsLine front) (rest : Text) :
    chars (front ++ rest) = chars front ++ chars rest := by
  rcases hfront with rfl | ⟨a, rfl⟩
  · rw [chars_nil, List.nil_append, List.nil_append]
  · rw [List.append_assoc, List.singleton_append, chars_append_newline]

-- A boundary of a text is one of its line.
theorem Boundary.of_append {front rest : Text} {o : Nat} (hfront : EndsLine front)
    (h : Boundary (front ++ rest) (front.length + o)) : Boundary rest o := by
  obtain ⟨k, hk⟩ := h
  rw [chars_append_of_endsLine hfront, List.take_append, List.map_append, total_append] at hk
  have hfull := total_width_chars front
  by_cases hlt : k ≤ (chars front).length
  -- Only characters of the front are counted, so that none of the rest stands before `o`.
  · have hsplit : total (((chars front).take k).map (·.width)) +
        total (((chars front).drop k).map (·.width)) = front.length := by
      rw [← total_append, ← List.map_append, List.take_append_drop, hfull]
    have hzero : k - (chars front).length = 0 := by omega
    rw [hzero, List.take_zero] at hk
    have hnil : total (([] : List Decoded).map (·.width)) = 0 := rfl
    exact ⟨0, by rw [List.take_zero]; omega⟩
  · rw [List.take_of_length_le (by omega), hfull] at hk
    exact ⟨k - (chars front).length, by omega⟩

-- Line ends are ASCII, so the characters of a text end where its lines do.
theorem Boundary.line {text : Text} {o : Nat} (ho : o ≤ text.length) (h : Boundary text o) :
    Boundary (lineBefore text o ++ lineAfter text o) (lineBefore text o).length := by
  have hrest : Boundary (lineBefore text o ++ text.drop o) (lineBefore text o).length := by
    refine Boundary.of_append (endsLine_linesBefore text o) ?_
    rwa [split_at_line, length_linesBefore ho]
  obtain ⟨after, hafter⟩ : lineAfter text o <+: text.drop o := List.takeWhile_prefix _
  have htake := hrest.take (c := (lineBefore text o ++ lineAfter text o).length) (by simp)
  rwa [← hafter, ← List.append_assoc, List.take_left] at htake

end SvgAssist.Text
