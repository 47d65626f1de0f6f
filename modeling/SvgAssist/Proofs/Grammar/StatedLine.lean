import Mathlib
import SvgAssist.Grammar.Load
import SvgAssist.Proofs.Text.Search

/-!
# Lines of YAML faults

The line of a YAML fault is looked for in its message (`statedLine_eq`): it is a number behind
`line ` (`isSome_firstLine?`). The faults that come with a line state it in front of anything that
is taken from the document (`firstLine?_message`). Inside of an element the message begins with the
name of the element, so that the line of the fault is what is found unless the name states another
one (`element_fault_placed`).
-/

namespace SvgAssist.Grammar

open Text

/-! ## Lines in a text -/

def decimal (digits : Text) : Nat := digits.foldl (fun n d => n * 10 + (d.toNat - 0x30)) 0

def headLine? (text : Text) : Option Nat :=
  let digits := (text.drop 5).takeWhile Byte.isDigit
  if utf8 "line " <+: text ∧ digits ≠ [] then some (min maxLine (decimal digits)) else none

/-- The first line that a text states. -/
def firstLine? : Text → Option Nat
  | [] => none
  | b :: rest => (headLine? (b :: rest)).or (firstLine? rest)

-- The stated line is the first one, or zero.
theorem statedLine_eq (text : Text) : statedLine text = (firstLine? text).getD 0 := by
  induction text with
  | nil => rfl
  | cons b rest ih =>
    unfold statedLine firstLine? headLine?
    extract_lets digits
    by_cases hline : utf8 "line " <+: b :: rest ∧ digits ≠ []
    · rw [if_pos hline, if_pos]
      · rfl
      · rw [List.isPrefixOf_iff_prefix.mpr hline.1, Bool.true_and]
        exact decide_eq_true hline.2
    · rw [if_neg hline, if_neg, Option.none_or, ih]
      rintro hboth
      rw [Bool.and_eq_true, List.isPrefixOf_iff_prefix, decide_eq_true_iff] at hboth
      exact hline hboth

-- The digits that a text begins with end at a colon.
theorem takeWhile_isDigit_colon (front behind : Text) :
    (front ++ Byte.colon :: behind).takeWhile Byte.isDigit = front.takeWhile Byte.isDigit := by
  rw [List.takeWhile_append, List.takeWhile_cons_of_neg (by decide), List.append_nil]
  split_ifs with hall
  · exact ((List.takeWhile_prefix _).eq_of_length hall).symm
  · rfl

-- What stands behind a colon adds no digits to a number.
theorem headLine?_colon (front behind : Text) :
    headLine? (front ++ Byte.colon :: behind) = headLine? front := by
  have hword : Byte.colon ∉ utf8 "line " := by decide
  unfold headLine?
  simp only [prefix_append_separator_iff hword]
  by_cases hline : utf8 "line " <+: front
  · have hlong : 5 ≤ front.length := hline.length_le
    rw [List.drop_append_of_le_length hlong, takeWhile_isDigit_colon]
  · rw [if_neg (fun h => hline h.1), if_neg (fun h => hline h.1)]

-- No line is stated across a colon.
theorem firstLine?_colon (front behind : Text) :
    firstLine? (front ++ Byte.colon :: behind) = (firstLine? front).or (firstLine? behind) := by
  induction front with
  | nil =>
    change (headLine? ([] ++ Byte.colon :: behind)).or _ = _
    rw [headLine?_colon]
    rfl
  | cons b front ih =>
    rw [List.cons_append, firstLine?, ih, ← List.cons_append, headLine?_colon, firstLine?,
      Option.or_assoc]

-- A line is stated by the word and at least one digit.
theorem isSome_headLine? (text : Text) :
    (headLine? text).isSome ↔ ∃ d, Byte.isDigit d ∧ utf8 "line " ++ [d] <+: text := by
  unfold headLine?
  extract_lets digits
  rw [Option.isSome_ite]
  constructor
  · rintro ⟨⟨rest, rfl⟩, hdigits⟩
    cases rest with
    | nil => exact absurd rfl hdigits
    | cons d rest =>
      refine ⟨d, ?_, rest, by simp⟩
      by_contra hd
      exact hdigits (List.takeWhile_cons_of_neg hd)
  · rintro ⟨d, hd, rest, rfl⟩
    refine ⟨⟨d :: rest, by simp⟩, ?_⟩
    have htake : digits = d :: rest.takeWhile Byte.isDigit := List.takeWhile_cons_of_pos hd
    rw [htake]
    exact List.cons_ne_nil _ _

/-- A text states a line if `line ` stands in front of a digit in it. -/
theorem isSome_firstLine? (text : Text) :
    (firstLine? text).isSome ↔ ∃ d, Byte.isDigit d ∧ utf8 "line " ++ [d] <:+: text := by
  induction text with
  | nil => simp [firstLine?]
  | cons b rest ih =>
    simp only [firstLine?, Option.isSome_or, Bool.or_eq_true, ih, isSome_headLine?,
      List.infix_cons_iff, and_or_left, exists_or]

/-! ## Numbers -/

theorem toNat_toUInt8_of_isDigit {c : Char} (h : c.isDigit) :
    c.val.toUInt8.toNat = c.toNat ∧ 0x30 ≤ c.toNat ∧ c.toNat ≤ 0x39 := by
  obtain ⟨hlow, hhigh⟩ : 0x30 ≤ c.toNat ∧ c.toNat ≤ 0x39 := by
    rw [Char.isDigit, Bool.and_eq_true, decide_eq_true_iff, decide_eq_true_iff] at h
    exact ⟨UInt32.le_iff_toNat_le.mp h.1, UInt32.le_iff_toNat_le.mp h.2⟩
  refine ⟨?_, hlow, hhigh⟩
  rw [UInt32.toNat_toUInt8]
  exact Nat.mod_eq_of_lt (by change c.toNat < 2 ^ 8; omega)

theorem isDigit_of_mem_toDigits {n : Nat} {c : Char} (h : c ∈ Nat.toDigits 10 n) : c.isDigit :=
  Nat.isDigit_of_mem_toDigits (by decide) (by decide) h

theorem isDigit_of_mem_ofNat {n : Nat} {b : UInt8} (h : b ∈ ofNat n) : Byte.isDigit b := by
  obtain ⟨c, hc, rfl⟩ := List.mem_map.mp h
  obtain ⟨heq, hlow, hhigh⟩ := toNat_toUInt8_of_isDigit (isDigit_of_mem_toDigits hc)
  rw [Byte.isDigit, Bool.and_eq_true, decide_eq_true_iff, decide_eq_true_iff,
    UInt8.le_iff_toNat_le, UInt8.le_iff_toNat_le, heq]
  exact ⟨hlow, hhigh⟩

-- Reading the decimal digits of a number gives it back.
theorem decimal_ofNat (n : Nat) : decimal (ofNat n) = n := by
  have hvalue : decimal (ofNat n) = Nat.ofDigitChars 10 (Nat.toDigits 10 n) 0 := by
    rw [decimal, ofNat, List.foldl_map, Nat.ofDigitChars_eq_foldl]
    refine List.foldl_ext _ _ _ fun sum c hc => ?_
    rw [(toNat_toUInt8_of_isDigit (isDigit_of_mem_toDigits hc)).1, Nat.mul_comm]
    rfl
  rw [hvalue, Nat.ofDigitChars_ten_toDigits]

-- Very large numbers are stated as the largest line.
theorem firstLine?_ofNat (n : Nat) (rest : Text) :
    firstLine? (utf8 "line " ++ ofNat n ++ Byte.colon :: rest) = some (min maxLine n) := by
  have hne : ofNat n ≠ [] := by
    rw [ofNat, ne_eq, List.map_eq_nil_iff]
    exact Nat.toDigits_ne_nil
  have hhead : headLine? (utf8 "line " ++ ofNat n) = some (min maxLine n) := by
    have hdigits : ((utf8 "line " ++ ofNat n).drop 5).takeWhile Byte.isDigit = ofNat n :=
      List.takeWhile_eq_self_iff.mpr fun b hb => isDigit_of_mem_ofNat hb
    unfold headLine?
    rw [hdigits, if_pos ⟨List.prefix_append _ _, hne⟩, decimal_ofNat]
  rw [firstLine?_colon]
  change ((headLine? (utf8 "line " ++ ofNat n)).or _).or _ = _
  rw [hhead]
  rfl

-- A label that states no line leaves the one that follows it.
theorem firstLine?_labelled (label : Text) (hlabel : firstLine? label = none) (n : Nat)
    (rest : Text) :
    firstLine? (label ++ utf8 ": line " ++ ofNat n ++ Byte.colon :: rest) =
      some (min maxLine n) := by
  have hsplit : label ++ utf8 ": line " ++ ofNat n ++ Byte.colon :: rest =
      label ++ Byte.colon :: Byte.space :: (utf8 "line " ++ ofNat n ++ Byte.colon :: rest) := by
    simp only [List.append_assoc]
    rfl
  have hspace (behind : Text) : firstLine? (Byte.space :: behind) = firstLine? behind := rfl
  rw [hsplit, firstLine?_colon, hlabel, Option.none_or, hspace, firstLine?_ofNat]

/-! ## Lines of faults -/

namespace FromYaml

def Misfit.line : Misfit → Nat
  | .kind line _ _ _ | .key line _ _ | .field line _ _ => line

/-- The line that a fault comes with; that of the first misfit if there are several. -/
def Fault.line? : Fault → Option Nat
  | .misfits (m :: _) => some m.line
  | .elementsShape line | .entryShape line | .valueShape line => some line
  | _ => none

-- The message of a misfit begins with its line.
theorem Misfit.message_eq (m : Misfit) :
    ∃ rest, m.message = utf8 "line " ++ ofNat m.line ++ Byte.colon :: rest := by
  cases m <;>
  · simp only [Misfit.message, List.append_assoc]
    exact ⟨_, rfl⟩

-- The line of a fault is the first one that its message states.
theorem Fault.firstLine?_message {fault : Fault} {line : Nat} (h : fault.line? = some line) :
    firstLine? fault.message = some (min maxLine line) := by
  unfold Fault.line? at h
  split at h
  case h_1 m more =>
    cases h
    obtain ⟨rest, hm⟩ := m.message_eq
    obtain ⟨others, hall⟩ : ∃ others,
        (utf8 "\n  ").intercalate ((m :: more).map Misfit.message) = m.message ++ others := by
      cases more with
      | nil => exact ⟨[], by simp⟩
      | cons next more =>
        rw [List.map_cons, List.map_cons, List.intercalate_cons_cons, List.append_assoc]
        exact ⟨_, rfl⟩
    have hmessage : Fault.message (.misfits (m :: more)) =
        utf8 "yaml: unmarshal errors:\n  " ++
          (utf8 "line " ++ ofNat m.line ++ Byte.colon :: (rest ++ others)) := by
      rw [Fault.message, hall, hm, List.append_assoc, List.cons_append]
    rw [hmessage, ← firstLine?_ofNat m.line (rest ++ others)]
    rfl
  case h_2 =>
    cases h
    exact firstLine?_labelled (utf8 "elements") rfl line (utf8 " expected mapping")
  case h_3 =>
    cases h
    exact firstLine?_labelled (utf8 "attribute entry") rfl line
      (utf8 " expected name or mapping")
  case h_4 =>
    cases h
    exact firstLine?_labelled (utf8 "enum value") rfl line
      (utf8 " expected string or mapping")
  case h_5 => cases h

end FromYaml

-- The name of an element comes in front of the fault, so a line in the name is found first.
theorem firstLine?_element (name : Text) (fault : FromYaml.Fault) :
    firstLine? (DecodeFault.message (.yaml (.element name fault))) =
      (firstLine? name).or (firstLine? fault.message) := by
  have hmessage : DecodeFault.message (.yaml (.element name fault)) =
      utf8 "decoding yaml schema: element " ++
        (name ++ Byte.colon :: Byte.space :: fault.message) := by
    simp only [DecodeFault.message, FromYaml.Fault.message, List.append_assoc]
    rfl
  have hfront (rest : Text) :
      firstLine? (utf8 "decoding yaml schema: element " ++ rest) = firstLine? rest := rfl
  have hspace : firstLine? (Byte.space :: fault.message) = firstLine? fault.message := rfl
  rw [hmessage, hfront, firstLine?_colon, hspace]

-- The position of a fault is all that is added to it.
theorem load_of_decodeYaml {text : Text} {fault : DecodeFault}
    (h : decodeYaml text = .error fault) :
    load .yaml text =
      .error (.decode ⟨[], (fault.position text).1, (fault.position text).2, fault⟩) := by
  unfold load
  simp only [h]

/-- A fault inside of an element is placed at the first line that its message states, unless the
name of the element states another one. A name where `line ` stands in front of no digit states
none. -/
theorem element_fault_placed {text name : Text} {fault : FromYaml.Fault}
    (h : decodeYaml text = .error (.yaml (.element name fault))) :
    ∃ f : LoadError, load .yaml text = .error (.decode f) ∧
      f.fault = .yaml (.element name fault) ∧
      f.line = ((firstLine? name).or (firstLine? fault.message)).getD 0 ∧
      f.column = (if f.line = 0 then 0 else 1) ∧
      (∀ line, fault.line? = some line → firstLine? fault.message = some (min maxLine line)) ∧
      ∀ line, firstLine? fault.message = some line → 0 < line →
        ((¬ ∃ d, Byte.isDigit d ∧ utf8 "line " ++ [d] <:+: name) →
          f.line = line ∧ f.column = 1) ∧
        ((f.line = line ∧ f.column = 1) ↔
          ∀ stated, firstLine? name = some stated → stated = line) := by
  obtain ⟨f, hload, hfault, hstated, hcolumn⟩ : ∃ f : LoadError,
      load .yaml text = .error (.decode f) ∧ f.fault = .yaml (.element name fault) ∧
      f.line = statedLine (DecodeFault.message (.yaml (.element name fault))) ∧
      f.column = if f.line = 0 then 0 else 1 := ⟨_, load_of_decodeYaml h, rfl, rfl, rfl⟩
  rw [statedLine_eq, firstLine?_element] at hstated
  refine ⟨f, hload, hfault, hstated, hcolumn, fun line => FromYaml.Fault.firstLine?_message,
    fun line hline hpos => ?_⟩
  have hiff : (f.line = line ∧ f.column = 1) ↔
      ∀ stated, firstLine? name = some stated → stated = line := by
    have hplaced : (f.line = line ∧ f.column = 1) ↔ f.line = line := by
      refine ⟨fun hboth => hboth.1, fun heq => ⟨heq, ?_⟩⟩
      rw [hcolumn, heq, if_neg hpos.ne']
    rw [hplaced, hstated, hline]
    cases firstLine? name <;> simp
  refine ⟨fun hplain => hiff.mpr fun stated hname => ?_, hiff⟩
  exact absurd ((isSome_firstLine? name).mp (Option.isSome_of_eq_some hname)) hplain

def FromYaml.Fault.scalarExample : FromYaml.Fault :=
  .misfits [.kind 2 (utf8 "!!str") (utf8 "b") .element]

-- A scalar on the second line where the body of an element should be.
theorem element_fault_placed_scalar :
    ∃ f : LoadError, load .yaml (utf8 "elements:\n a: b\n") = .error (.decode f) ∧
      f.fault = .yaml (.element (utf8 "a") .scalarExample) ∧ f.line = 2 ∧ f.column = 1 := by
  have hdecode : decodeYaml (utf8 "elements:\n a: b\n") =
      .error (.yaml (.element (utf8 "a") .scalarExample)) := by cbv
  obtain ⟨f, hload, hfault, -, -, hmessage, hplaced⟩ := element_fault_placed hdecode
  have hplain : ¬ ∃ d, Byte.isDigit d ∧ utf8 "line " ++ [d] <:+: utf8 "a" := by
    rw [← isSome_firstLine?]
    decide
  exact ⟨f, hload, hfault, (hplaced 2 (hmessage 2 rfl) (by decide)).1 hplain⟩

-- The name of an element can state a line of its own.
theorem element_fault_misplaced :
    firstLine? FromYaml.Fault.scalarExample.message = some 2 ∧
      load .yaml (utf8 "elements:\n line 9: b\n") =
        .error (.decode ⟨[], 9, 1, .yaml (.element (utf8 "line 9") .scalarExample)⟩) := by
  have hdecode : decodeYaml (utf8 "elements:\n line 9: b\n") =
      .error (.yaml (.element (utf8 "line 9") .scalarExample)) := by cbv
  have hstated :
      statedLine (DecodeFault.message (.yaml (.element (utf8 "line 9") .scalarExample))) = 9 := by
    rw [statedLine_eq, firstLine?_element]
    rfl
  have hline : FromYaml.Fault.scalarExample.line? = some 2 := rfl
  refine ⟨FromYaml.Fault.firstLine?_message hline, ?_⟩
  rw [load_of_decodeYaml hdecode]
  simp only [DecodeFault.position, hstated]
  rfl

end SvgAssist.Grammar
