import Mathlib.Tactic.SplitIfs
import SvgAssist.Proofs.Text.Chars

/-!
# Encoded characters

The bytes of a character are read as that character, whatever follows them (`exists_encodes`), and
the bytes that a character was read from are the bytes of that character (`ofChar_decodeHead`). So a
text that is UTF-8 is not changed by its repair (`repaired_of_isValid`).
-/

namespace SvgAssist.Text

theorem isTail_iff (b : UInt8) : isTail b = true ↔ 0x80 ≤ b.toNat ∧ b.toNat ≤ 0xbf := by
  simp [isTail, UInt8.le_iff_toNat_le]

/-- The bounds of the byte behind a leading byte, by the numbers of both. -/
theorem isSecond_iff (lead b : UInt8) : isSecond lead b = true ↔
    0x80 ≤ b.toNat ∧ b.toNat ≤ 0xbf ∧ (lead.toNat = 0xe0 → 0xa0 ≤ b.toNat) ∧
      (lead.toNat = 0xed → b.toNat ≤ 0x9f) ∧ (lead.toNat = 0xf0 → 0x90 ≤ b.toNat) ∧
      (lead.toNat = 0xf4 → b.toNat ≤ 0x8f) := by
  simp only [isSecond, secondBounds, Bool.and_eq_true, decide_eq_true_eq, UInt8.le_iff_toNat_le,
    ← UInt8.toNat_inj]
  split_ifs <;> simp_all <;> omega

-- A character is no surrogate.
theorem char_bounds (c : Char) : c.toNat < 0xd800 ∨ 0xdfff < c.toNat ∧ c.toNat < 0x110000 := c.valid

theorem toNat_toUInt8 {n : Nat} (h : n < 256) : n.toUInt8.toNat = n := by
  simp [Nat.mod_eq_of_lt h]

/-- A character is a leading byte, which says how many bytes there are, and bytes that go on. -/
structure Encodes (c : Char) (lead : UInt8) (more : Text) : Prop where
  width : leadWidth lead = more.length + 1
  tail : ∀ b ∈ more, isTail b = true
  head (rest : Text) : decodeHead lead (more ++ rest) = ⟨c, more.length + 1⟩

theorem encodes_one {c : Char} {lead : UInt8} (hlead : lead.toNat = c.toNat)
    (h : c.toNat < 0x80) : Encodes c lead [] := by
  have hone : lead < 0x80 := by rw [UInt8.lt_iff_toNat_lt, hlead]; exact h
  refine ⟨by simp [leadWidth, hone], by simp, fun rest => ?_⟩
  simp [decodeHead, hone, hlead]

-- The form of two bytes: five bits in the first and six in the second.
theorem encodes_two {c : Char} {lead b : UInt8} (hlead : lead.toNat = 0xc0 + c.toNat / 64)
    (hb : b.toNat = 0x80 + c.toNat % 64) (hlow : 0x80 ≤ c.toNat) (hhigh : c.toNat < 0x800) :
    Encodes c lead [b] := by
  have hone : ¬lead < 0x80 := by simp only [UInt8.lt_iff_toNat_lt, UInt8.reduceToNat]; omega
  have htwo : 0xc2 ≤ lead ∧ lead ≤ 0xdf := by
    simp only [UInt8.le_iff_toNat_le, UInt8.reduceToNat]; omega
  have htail : isTail b = true := by rw [isTail_iff]; omega
  have hvalue : lead.toNat % 32 * 64 + tailBits b = c.toNat := by rw [tailBits]; omega
  refine ⟨by simp [leadWidth, hone, htwo], by simpa using htail, fun rest => ?_⟩
  simp [decodeHead, hone, htwo, htail, hvalue]

-- The bounds on the second byte leave out shorter forms and surrogates.
theorem encodes_three {c : Char} {lead b d : UInt8} (hlead : lead.toNat = 0xe0 + c.toNat / 4096)
    (hb : b.toNat = 0x80 + c.toNat / 64 % 64) (hd : d.toNat = 0x80 + c.toNat % 64)
    (hlow : 0x800 ≤ c.toNat) (hhigh : c.toNat < 0x10000) : Encodes c lead [b, d] := by
  have hc := char_bounds c
  have hone : ¬lead < 0x80 := by simp only [UInt8.lt_iff_toNat_lt, UInt8.reduceToNat]; omega
  have htwo : ¬(0xc2 ≤ lead ∧ lead ≤ 0xdf) := by
    simp only [UInt8.le_iff_toNat_le, UInt8.reduceToNat]; omega
  have hthree : 0xe0 ≤ lead ∧ lead ≤ 0xef := by
    simp only [UInt8.le_iff_toNat_le, UInt8.reduceToNat]; omega
  have hsecond : isSecond lead b = true := by rw [isSecond_iff]; omega
  have htailb : isTail b = true := by rw [isTail_iff]; omega
  have htaild : isTail d = true := by rw [isTail_iff]; omega
  have hvalue : lead.toNat % 16 * 4096 + tailBits b * 64 + tailBits d = c.toNat := by
    rw [tailBits, tailBits]; omega
  refine ⟨by simp [leadWidth, hone, htwo, hthree], by simp [htailb, htaild], fun rest => ?_⟩
  simp [decodeHead, hone, htwo, hthree, hsecond, htaild, hvalue]

theorem encodes_four {c : Char} {lead b d e : UInt8}
    (hlead : lead.toNat = 0xf0 + c.toNat / 262144) (hb : b.toNat = 0x80 + c.toNat / 4096 % 64)
    (hd : d.toNat = 0x80 + c.toNat / 64 % 64) (he : e.toNat = 0x80 + c.toNat % 64)
    (hlow : 0x10000 ≤ c.toNat) : Encodes c lead [b, d, e] := by
  have hc := char_bounds c
  have hone : ¬lead < 0x80 := by simp only [UInt8.lt_iff_toNat_lt, UInt8.reduceToNat]; omega
  have htwo : ¬(0xc2 ≤ lead ∧ lead ≤ 0xdf) := by
    simp only [UInt8.le_iff_toNat_le, UInt8.reduceToNat]; omega
  have hthree : ¬(0xe0 ≤ lead ∧ lead ≤ 0xef) := by
    simp only [UInt8.le_iff_toNat_le, UInt8.reduceToNat]; omega
  have hfour : 0xf0 ≤ lead ∧ lead ≤ 0xf4 := by
    simp only [UInt8.le_iff_toNat_le, UInt8.reduceToNat]; omega
  have hsecond : isSecond lead b = true := by rw [isSecond_iff]; omega
  have htailb : isTail b = true := by rw [isTail_iff]; omega
  have htaild : isTail d = true := by rw [isTail_iff]; omega
  have htaile : isTail e = true := by rw [isTail_iff]; omega
  have hvalue : lead.toNat % 8 * 262144 + tailBits b * 4096 + tailBits d * 64 + tailBits e =
      c.toNat := by
    rw [tailBits, tailBits, tailBits]; omega
  refine ⟨by simp [leadWidth, hone, htwo, hthree, hfour], by simp [htailb, htaild, htaile],
    fun rest => ?_⟩
  simp [decodeHead, hone, htwo, hthree, hfour, hsecond, htaild, htaile, hvalue]

/-- The bytes of a character are read as that character. -/
theorem exists_encodes (c : Char) : ∃ lead more, ofChar c = lead :: more ∧ Encodes c lead more := by
  have hc := char_bounds c
  simp only [ofChar]
  split_ifs with hone htwo hthree
  · exact ⟨_, [], rfl, encodes_one (toNat_toUInt8 (by omega)) hone⟩
  · exact ⟨_, _, rfl, encodes_two (toNat_toUInt8 (by omega)) (toNat_toUInt8 (by omega))
      (by omega) htwo⟩
  · exact ⟨_, _, rfl, encodes_three (toNat_toUInt8 (by omega)) (toNat_toUInt8 (by omega))
      (toNat_toUInt8 (by omega)) (by omega) hthree⟩
  · exact ⟨_, _, rfl, encodes_four (toNat_toUInt8 (by omega)) (toNat_toUInt8 (by omega))
      (toNat_toUInt8 (by omega)) (toNat_toUInt8 (by omega)) (by omega)⟩

-- A number that is no surrogate is the number of a character.
theorem toNat_charOfNat {n : Nat} (h : n < 0xd800 ∨ 0xdfff < n ∧ n < 0x110000) :
    (Char.ofNat n).toNat = n := by
  rw [Char.ofNat, dif_pos h]
  rfl

theorem eq_toUInt8 {b : UInt8} {n : Nat} (h : b.toNat = n) : n.toUInt8 = b := by
  subst h
  exact UInt8.ofNat_toNat

theorem ofChar_one {lead : UInt8} (hlead : lead.toNat < 0x80) :
    ofChar (Char.ofNat lead.toNat) = [lead] := by
  have hn := toNat_charOfNat (n := lead.toNat) (by omega)
  simp only [ofChar, hn]
  rw [if_pos hlead, eq_toUInt8 rfl]

theorem ofChar_two {lead b : UInt8} (hlead : 0xc2 ≤ lead.toNat ∧ lead.toNat ≤ 0xdf)
    (hb : 0x80 ≤ b.toNat ∧ b.toNat ≤ 0xbf) :
    ofChar (Char.ofNat (lead.toNat % 32 * 64 + tailBits b)) = [lead, b] := by
  simp only [tailBits]
  have hn := toNat_charOfNat (n := lead.toNat % 32 * 64 + b.toNat % 64) (by omega)
  simp only [ofChar, hn]
  rw [if_neg (by omega), if_pos (by omega), eq_toUInt8 (b := lead) (by omega),
    eq_toUInt8 (b := b) (by omega)]

-- The bits that reading takes from the bytes are those that writing puts there.
theorem ofChar_three {lead b d : UInt8} (hlead : 0xe0 ≤ lead.toNat ∧ lead.toNat ≤ 0xef)
    (hb : isSecond lead b = true) (hd : 0x80 ≤ d.toNat ∧ d.toNat ≤ 0xbf) :
    ofChar (Char.ofNat (lead.toNat % 16 * 4096 + tailBits b * 64 + tailBits d)) =
      [lead, b, d] := by
  rw [isSecond_iff] at hb
  simp only [tailBits]
  have hn := toNat_charOfNat
    (n := lead.toNat % 16 * 4096 + b.toNat % 64 * 64 + d.toNat % 64) (by omega)
  simp only [ofChar, hn]
  rw [if_neg (by omega), if_neg (by omega), if_pos (by omega), eq_toUInt8 (b := lead) (by omega),
    eq_toUInt8 (b := b) (by omega), eq_toUInt8 (b := d) (by omega)]

theorem ofChar_four {lead b d e : UInt8} (hlead : 0xf0 ≤ lead.toNat ∧ lead.toNat ≤ 0xf4)
    (hb : isSecond lead b = true) (hd : 0x80 ≤ d.toNat ∧ d.toNat ≤ 0xbf)
    (he : 0x80 ≤ e.toNat ∧ e.toNat ≤ 0xbf) :
    ofChar (Char.ofNat
      (lead.toNat % 8 * 262144 + tailBits b * 4096 + tailBits d * 64 + tailBits e)) =
      [lead, b, d, e] := by
  rw [isSecond_iff] at hb
  simp only [tailBits]
  have hn := toNat_charOfNat (n := lead.toNat % 8 * 262144 + b.toNat % 64 * 4096 +
    d.toNat % 64 * 64 + e.toNat % 64) (by omega)
  simp only [ofChar, hn]
  rw [if_neg (by omega), if_neg (by omega), if_neg (by omega), eq_toUInt8 (b := lead) (by omega),
    eq_toUInt8 (b := b) (by omega), eq_toUInt8 (b := d) (by omega),
    eq_toUInt8 (b := e) (by omega)]

/-- A character that was read has the bytes it was read from. -/
theorem ofChar_decodeHead {lead : UInt8} {rest : Text} (h : (decodeHead lead rest).isBad = false) :
    ofChar (decodeHead lead rest).char = (lead :: rest).take (decodeHead lead rest).width := by
  have hbad : Decoded.bad.isBad = true := by decide
  unfold decodeHead at h ⊢
  simp only [UInt8.lt_iff_toNat_lt, UInt8.le_iff_toNat_le, UInt8.reduceToNat, Bool.and_eq_true,
    isTail_iff, decide_eq_true_eq] at h ⊢
  split_ifs at h ⊢ with hone htwo hthree hfour
  · exact ofChar_one hone
  · rcases rest with _ | ⟨b, rest⟩
    · simp [hbad] at h
    · simp only at h ⊢
      split_ifs at h ⊢ with hb
      · exact ofChar_two htwo hb
      · simp [hbad] at h
  · rcases rest with _ | ⟨b, _ | ⟨d, rest⟩⟩
    · simp [hbad] at h
    · simp [hbad] at h
    · simp only at h ⊢
      split_ifs at h ⊢ with hb
      · exact ofChar_three hthree hb.1 hb.2
      · simp [hbad] at h
  · rcases rest with _ | ⟨b, _ | ⟨d, _ | ⟨e, rest⟩⟩⟩
    · simp [hbad] at h
    · simp [hbad] at h
    · simp [hbad] at h
    · simp only at h ⊢
      split_ifs at h ⊢ with hb
      · exact ofChar_four hfour hb.1.1 hb.1.2 hb.2
      · simp [hbad] at h
  · simp [hbad] at h

/-! ## Repair -/

theorem repaired_nil : repaired [] = [] := by rw [repaired, chars_nil, List.flatMap_nil]

-- Repairing goes character by character.
theorem repaired_cons (b : UInt8) (rest : Text) : repaired (b :: rest) =
    ofChar (decodeHead b rest).char ++ repaired (rest.drop ((decodeHead b rest).width - 1)) := by
  rw [repaired, chars_cons, List.flatMap_cons, repaired]

-- A character has at least one byte, so repairing makes no text empty.
theorem repaired_eq_nil_iff (text : Text) : repaired text = [] ↔ text = [] := by
  cases text with
  | nil => simp [repaired_nil]
  | cons b rest =>
    obtain ⟨lead, more, hchar, -⟩ := exists_encodes (decodeHead b rest).char
    simp [repaired_cons, hchar]

theorem repaired_cons_ascii {b : UInt8} (hb : b < 0x80) (rest : Text) :
    repaired (b :: rest) = b :: repaired rest := by
  have hhead : decodeHead b rest = ⟨Char.ofNat b.toNat, 1⟩ := if_pos hb
  rw [repaired_cons, hhead, ofChar_one (UInt8.lt_iff_toNat_lt.mp hb)]
  rfl

-- A text begins with an ASCII byte just when it does so when it is repaired.
theorem head?_repaired_eq_iff {b : UInt8} (hb : b < 0x80) (text : Text) :
    (repaired text).head? = some b ↔ text.head? = some b := by
  cases text with
  | nil => rw [repaired_nil]
  | cons a rest =>
    by_cases ha : a < 0x80
    · rw [repaired_cons_ascii ha, List.head?_cons, List.head?_cons]
    refine iff_of_false (fun h => ?_) (fun h => ha (Option.some.inj h ▸ hb))
    rw [repaired_cons] at h
    by_cases hgood : (decodeHead a rest).isBad = false
    · obtain ⟨n, hn⟩ := Nat.exists_eq_add_of_lt (width_decodeHead a rest).1
      rw [ofChar_decodeHead hgood, hn, Nat.zero_add, List.take_succ_cons, List.cons_append,
        List.head?_cons] at h
      exact ha (Option.some.inj h ▸ hb)
    -- The replacement character begins with no ASCII byte either.
    · have hchar : (decodeHead a rest).char = Char.ofNat 0xfffd := by
        simp only [Decoded.isBad, Bool.not_eq_false, Bool.and_eq_true, decide_eq_true_eq] at hgood
        exact hgood.1
      have hbytes : ofChar (Char.ofNat 0xfffd) = [0xef, 0xbf, 0xbd] := by decide
      rw [hchar, hbytes, List.cons_append, List.head?_cons] at h
      obtain rfl := Option.some.inj h
      exact absurd hb (by decide)

/-- A text that is UTF-8 needs no repair. -/
theorem repaired_of_isValid {text : Text} (h : text.isValid = true) : text.repaired = text := by
  induction text using chars_induction with
  | nil => exact repaired_nil
  | cons b rest ih =>
    rw [isValid, chars_cons, List.all_cons, Bool.and_eq_true] at h
    have hgood : (decodeHead b rest).isBad = false := by simpa using h.1
    obtain ⟨n, hn⟩ := Nat.exists_eq_add_of_lt (width_decodeHead b rest).1
    rw [repaired_cons, ofChar_decodeHead hgood, ih h.2, hn]
    simp

theorem isValid_of_ascii {text : Text} (h : text.all (· < 0x80)) : text.isValid = true := by
  induction text with
  | nil => rw [isValid, chars_nil, List.all_nil]
  | cons b rest ih =>
    rw [List.all_cons, Bool.and_eq_true, decide_eq_true_eq] at h
    obtain ⟨hb, hrest⟩ := h
    have hsmall : b.toNat < 0x80 := hb
    have hhead : decodeHead b rest = ⟨Char.ofNat b.toNat, 1⟩ := if_pos hb
    have hne : Char.ofNat b.toNat ≠ Char.ofNat 0xfffd := by
      intro heq
      have hn := congrArg Char.toNat heq
      rw [toNat_charOfNat (by omega), toNat_charOfNat (by omega)] at hn
      omega
    have hgood : (decodeHead b rest).isBad = false := by simp [hhead, Decoded.isBad, hne]
    rw [isValid, chars_cons, List.all_cons, hgood, hhead]
    exact ih hrest

end SvgAssist.Text
