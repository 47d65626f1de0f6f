import SvgAssist.Json.Reader
import SvgAssist.Json.Writer
import SvgAssist.Proofs.Text.Encoding

/-!
# JSON strings

A text that is written as a string is read back, with the bytes that are not UTF-8 replaced
(`quoted_spells`).
-/

namespace SvgAssist.Json

open Text (isTail leadWidth isCutShort ofChar)

-- The pieces that came before stay in front.
theorem unescapeFrom_eq (done : List Text) (contents : Text) :
    unescapeFrom done contents = done.reverse.flatten ++ unescape contents := by
  induction hlen : contents.length using Nat.strong_induction_on generalizing done contents with
  | h n ih =>
    subst hlen
    cases contents with
    | nil => simp [unescape, unescapeFrom]
    | cons b rest =>
      have hless : (rest.drop ((stringPiece b rest).2 - 1)).length < (b :: rest).length := by
        simp only [List.length_drop, List.length_cons]
        omega
      simp only [unescape, unescapeFrom]
      rw [ih _ hless (_ :: done) _ rfl, ih _ hless [_] _ rfl, List.reverse_cons,
        List.flatten_append, List.append_assoc]
      rfl

theorem unescape_cons (b : UInt8) (rest : Text) : unescape (b :: rest) =
    (stringPiece b rest).1 ++ unescape (rest.drop ((stringPiece b rest).2 - 1)) := by
  simp only [unescape, unescapeFrom]
  rw [unescapeFrom_eq, List.reverse_singleton, List.flatten_singleton]
  rfl

/-- The contents of a string spell a text, whatever comes behind them. -/
structure Spells (contents text : Text) : Prop where
  size (seen : Nat) (tail : Text) :
    stringSize seen (contents ++ tail) = stringSize (seen + contents.length) tail
  text (rest : Text) : unescape (contents ++ rest) = text ++ unescape rest

namespace Spells

theorem nil : Spells [] [] := ⟨fun _ _ => rfl, fun _ => rfl⟩

-- Contents can be put together, since they spell their text whatever comes behind.
theorem append {a b s t : Text} (ha : Spells a s) (hb : Spells b t) : Spells (a ++ b) (s ++ t) where
  size seen tail := by
    rw [List.append_assoc, ha.size, hb.size, List.length_append, Nat.add_assoc]
  text rest := by rw [List.append_assoc, ha.text, hb.text, List.append_assoc]

-- So each character can be written on its own.
theorem flatMap {α : Type} {write text : α → Text} (h : ∀ a, Spells (write a) (text a))
    (all : List α) : Spells (all.flatMap write) (all.flatMap text) := by
  induction all with
  | nil => exact nil
  | cons a all ih => exact (h a).append ih

theorem letter {b : UInt8} (h : isEscape b = true) :
    Spells [Byte.backslash, b] [escapedByte b] where
  size seen tail := by
    have hsize : escapeSize seen (b :: tail) = .ok 2 := by simp only [escapeSize, h, if_true]
    rw [List.cons_append, stringSize, if_neg (by decide), if_pos rfl, List.cons_append,
      List.nil_append, hsize]
    rfl
  text rest := by
    have hpiece : stringPiece Byte.backslash (b :: rest) = ([escapedByte b], 2) := by
      simp only [isEscape, Bool.or_eq_true, beq_iff_eq, or_assoc] at h
      rcases h with rfl | rfl | rfl | rfl | rfl | rfl | rfl | rfl <;> rfl
    rw [List.cons_append, List.cons_append, List.nil_append, unescape_cons, hpiece]
    rfl

theorem hexValue?_hexDigit : ∀ n < 16, Byte.hexValue? (Byte.hexDigit n) = some n := by decide

/-- The four digits of a number. -/
theorem hexDigits_four (n : Nat) : Text.hexDigits 4 n =
    [Byte.hexDigit (n / 16 / 16 / 16 % 16), Byte.hexDigit (n / 16 / 16 % 16),
      Byte.hexDigit (n / 16 % 16), Byte.hexDigit (n % 16)] := rfl

-- Four digits give back every number that they can hold.
theorem hex4?_hexDigits {n : Nat} (h : n < 0x10000) (rest : Text) :
    hex4? (Text.hexDigits 4 n ++ rest) = some n := by
  have hdigit : ∀ k, Byte.hexValue? (Byte.hexDigit (k % 16)) = some (k % 16) :=
    fun k => hexValue?_hexDigit _ (Nat.mod_lt k (by decide))
  simp only [hexDigits_four, List.cons_append, List.nil_append, hex4?, hdigit, Option.bind_eq_bind,
    Option.bind_some, Option.pure_def]
  congr 1
  omega

theorem numericEscape_append (n : Nat) (rest : Text) : numericEscape n ++ rest =
    Byte.backslash :: 0x75 :: (Text.hexDigits 4 n ++ rest) := rfl

-- A numeric escape stands for its character unless it is one half of a pair.
theorem numeric {n : Nat} (h : n < 0xd800 ∨ 0xdfff < n ∧ n < 0x10000) :
    Spells (numericEscape n) (ofChar (Char.ofNat n)) where
  size seen tail := by
    have hall : (Text.hexDigits 4 n).all fun d => (Byte.hexValue? d).isSome := by
      simp [hexDigits_four, hexValue?_hexDigit _ (Nat.mod_lt _ _)]
    have hsize : escapeSize seen (0x75 :: (Text.hexDigits 4 n ++ tail)) = .ok 6 := by
      have htake : (Text.hexDigits 4 n ++ tail).take 4 = Text.hexDigits 4 n := rfl
      have hu : isEscape 0x75 = false := by decide
      simp only [escapeSize, hu, htake, hall]
      rfl
    rw [numericEscape_append, stringSize, if_neg (by decide), if_pos rfl, hsize]
    rfl
  text rest := by
    have hchar : escapedChar n rest = (Char.ofNat n, 6) := by
      have hhigh : isHighSurrogate n = false := by simp [isHighSurrogate]; omega
      have hlow : isLowSurrogate n = false := by simp [isLowSurrogate]; omega
      simp [escapedChar, hhigh, hlow]
    have hpiece : stringPiece Byte.backslash (0x75 :: (Text.hexDigits 4 n ++ rest)) =
        (ofChar (Char.ofNat n), 6) := by
      have hdrop : (Text.hexDigits 4 n ++ rest).drop 4 = rest := rfl
      simp only [stringPiece, if_true, hex4?_hexDigits (by omega : n < 0x10000), hdrop, hchar]
    rw [numericEscape_append, unescape_cons, hpiece]
    rfl

-- Bytes that continue a character are passed over.
theorem stringSize_tail {more : Text} (h : ∀ b ∈ more, isTail b = true) (seen : Nat) (tail : Text) :
    stringSize seen (more ++ tail) = stringSize (seen + more.length) tail := by
  induction more generalizing seen with
  | nil => rfl
  | cons b more ih =>
    obtain ⟨hb, hmore⟩ := List.forall_mem_cons.mp h
    rw [Text.isTail_iff] at hb
    have hquote : b ≠ Byte.doubleQuote := by rintro rfl; revert hb; decide
    have hslash : b ≠ Byte.backslash := by rintro rfl; revert hb; decide
    have hcontrol : ¬b < 0x20 := by simp only [UInt8.lt_iff_toNat_lt, UInt8.reduceToNat]; omega
    have hwidth : leadWidth b = 0 := by
      have hlow : ¬b < 0x80 := by simp only [UInt8.lt_iff_toNat_lt, UInt8.reduceToNat]; omega
      have hhigh : ∀ lead : UInt8, 0xc2 ≤ lead.toNat → ¬lead ≤ b := fun lead hlead => by
        rw [UInt8.le_iff_toNat_le]
        omega
      simp [leadWidth, hlow, hhigh]
    have hwhole : isCutShort (b :: (more ++ tail)) = false := by simp [isCutShort, hwidth]
    rw [List.cons_append, stringSize, if_neg hquote, if_neg hslash, if_neg hcontrol, hwhole,
      Bool.and_false, if_neg Bool.false_ne_true, ih hmore, List.length_cons]
    congr 1
    omega

-- A character that needs no escape stands for itself.
theorem plain {c : Char} (hquote : c ≠ '"') (hslash : c ≠ '\\') (hcontrol : 0x20 ≤ c.toNat) :
    Spells (ofChar c) (ofChar c) := by
  obtain ⟨lead, more, hchar, hencodes⟩ := Text.exists_encodes c
  have hascii : lead < 0x80 → Char.ofNat lead.toNat = c := fun h => by
    have hone : Text.decodeHead lead (more ++ []) = ⟨Char.ofNat lead.toNat, 1⟩ := if_pos h
    exact congrArg Decoded.char (hone.symm.trans (hencodes.head []))
  have hquote' : lead ≠ Byte.doubleQuote := by
    rintro rfl
    exact hquote (hascii (by decide)).symm
  have hslash' : lead ≠ Byte.backslash := by
    rintro rfl
    exact hslash (hascii (by decide)).symm
  have hcontrol' : ¬lead < 0x20 := by
    intro h
    have hone : lead < 0x80 := UInt8.lt_trans h (by decide)
    have hsmall : lead.toNat < 0x20 := h
    have hn := Text.toNat_charOfNat (n := lead.toNat) (by omega)
    rw [hascii hone] at hn
    omega
  have hwhole (tail : Text) : isCutShort (lead :: (more ++ tail)) = false := by
    have hlong : ¬(more ++ tail).length + 1 < leadWidth lead := by
      rw [hencodes.width, List.length_append]
      omega
    simp only [isCutShort, hlong, decide_false, Bool.false_and]
  rw [hchar]
  constructor
  · intro seen tail
    rw [List.cons_append, stringSize, if_neg hquote', if_neg hslash', if_neg hcontrol', hwhole,
      Bool.and_false, if_neg Bool.false_ne_true, stringSize_tail hencodes.tail, List.length_cons]
    congr 1
    omega
  · intro rest
    have hpiece : stringPiece lead (more ++ rest) = (lead :: more, more.length + 1) := by
      simp only [stringPiece, hslash', if_false, hencodes.head, hchar]
    rw [List.cons_append, unescape_cons, hpiece]
    simp

-- Whichever way a character is written, it stands for itself.
theorem escapeChar (d : Decoded) : Spells (escapeChar d) (ofChar d.char) := by
  have heq : ∀ n, d.char.toNat = n → d.char = Char.ofNat n := fun n h =>
    h ▸ (Char.ofNat_toNat d.char).symm
  have hnumeric (h : d.char.toNat < 0xd800) :
      Spells (numericEscape d.char.toNat) (ofChar d.char) := by
    have hcode := numeric (.inl h)
    rwa [Char.ofNat_toNat] at hcode
  unfold Json.escapeChar
  simp only [Bool.or_eq_true, decide_eq_true_eq]
  split_ifs with hsign hbackspace hfeed hnewline hreturn htab hcode hbad
  · rcases hsign with h | h <;> rw [h]
    · exact letter (b := 0x22) (by decide)
    · exact letter (b := 0x5c) (by decide)
  · rw [heq _ hbackspace]
    exact letter (b := 0x62) (by decide)
  · rw [heq _ hfeed]
    exact letter (b := 0x66) (by decide)
  · rw [heq _ hnewline]
    exact letter (b := 0x6e) (by decide)
  · rw [heq _ hreturn]
    exact letter (b := 0x72) (by decide)
  · rw [heq _ htab]
    exact letter (b := 0x74) (by decide)
  · refine hnumeric ?_
    rcases hcode with ((((h | h) | h) | h) | h) | h
    · omega
    · rw [h]; decide
    · rw [h]; decide
    · rw [h]; decide
    · omega
    · omega
  · have hchar : d.char = Char.ofNat 0xfffd := by
      simp only [Decoded.isBad, Bool.and_eq_true, decide_eq_true_eq] at hbad
      exact hbad.1
    rw [hchar]
    exact numeric (.inr (by decide))
  · rw [not_or] at hsign
    exact plain hsign.1 hsign.2 (by omega)

end Spells

/-- A text that is written as a string spells the repaired text. -/
theorem quoted_spells (text : Text) :
    ∃ contents, Spells contents text.repaired ∧
      ∀ tail, quoted text ++ tail = Byte.doubleQuote :: (contents ++ Byte.doubleQuote :: tail) := by
  refine ⟨(Text.chars text).flatMap escapeChar, .flatMap .escapeChar _, fun tail => ?_⟩
  have hquote : utf8 "\"" = [Byte.doubleQuote] := by decide
  rw [quoted, hquote, List.append_assoc, List.append_assoc]
  rfl

-- The string ends at the quote behind its contents.
theorem Spells.stringSize_closed {contents text : Text} (h : Spells contents text) (tail : Text) :
    stringSize 1 (contents ++ Byte.doubleQuote :: tail) = .ok (contents.length + 2) := by
  rw [h.size, stringSize, if_pos rfl]
  congr 1
  omega

theorem Spells.unescape_eq {contents text : Text} (h : Spells contents text) :
    unescape contents = text := by
  have hall := h.text []
  rwa [List.append_nil, unescape, unescape, unescapeFrom, List.reverse_nil, List.flatten_nil,
    List.append_nil] at hall

end SvgAssist.Json
