import SvgAssist.Markup.Event
import SvgAssist.Proofs.Text.Search
import Mathlib.Data.List.TakeWhile

/-!
# Pieces of markup

What `construct` finds at a `<` depends on the byte behind it, and only on bytes that the piece
covers. A piece that ends in front of a cut is therefore found in the cut text too, and one that
does not is unterminated there (`construct_take`).
-/

namespace SvgAssist.Markup

/-! ## Names -/

-- Cutting a text cuts what it begins with.
theorem takeWhile_take (p : UInt8 → Bool) (text : Text) (c : Nat) :
    (text.take c).takeWhile p = (text.takeWhile p).take c := by
  induction text generalizing c with
  | nil => simp
  | cons b rest ih =>
    cases c with
    | zero => simp
    | succ c => by_cases hb : p b <;> simp [hb, ih]

theorem takeWhile_append_of_stop {p : UInt8 → Bool} {front rest : Text} (hfront : ∀ b ∈ front, p b)
    (hrest : ∀ b, rest.head? = some b → ¬ p b) : (front ++ rest).takeWhile p = front := by
  have hstop : rest.takeWhile p = [] := by
    cases rest with
    | nil => rfl
    | cons b rest => exact List.takeWhile_cons_of_neg (hrest b rfl)
  rw [List.takeWhile_append_of_pos hfront, hstop, List.append_nil]

theorem dropWhile_append_of_stop {p : UInt8 → Bool} {front rest : Text} (hfront : ∀ b ∈ front, p b)
    (hrest : ∀ b, rest.head? = some b → ¬ p b) : (front ++ rest).dropWhile p = rest := by
  rw [List.dropWhile_append_of_pos hfront]
  cases rest with
  | nil => rfl
  | cons b rest => exact List.dropWhile_cons_of_neg (hrest b rfl)

theorem takeName_take (text : Text) (c : Nat) :
    takeName (text.take c) = (takeName text).take c := by
  cases text with
  | nil => simp [takeName]
  | cons b rest =>
    cases c with
    | zero => simp [takeName]
    | succ c => by_cases hb : isNameStart b <;> simp [takeName, hb, takeWhile_take]

theorem isPrefix_takeName (text : Text) : takeName text <+: text := by
  cases text with
  | nil => exact List.nil_prefix
  | cons b rest =>
    by_cases hb : isNameStart b
    · simp only [takeName, hb, if_true, List.cons_prefix_cons, true_and]
      exact List.takeWhile_prefix _
    · simp [takeName, hb]

-- A name is the longest name of itself.
theorem takeName_takeName (text : Text) : takeName (takeName text) = takeName text := by
  have htake := takeName_take text (takeName text).length
  rwa [← List.prefix_iff_eq_take.mp (isPrefix_takeName text), List.take_length] at htake

theorem isNameStart_of_takeName {b : UInt8} {rest : Text} (h : takeName (b :: rest) ≠ []) :
    isNameStart b := by
  by_contra hb
  exact h (if_neg hb)

-- Bytes of names are ASCII and end no line.
theorem ascii_of_isNameByte {b : UInt8} (h : isNameByte b) :
    b < 0x80 ∧ b ≠ Byte.newline ∧ b ≠ Byte.carriageReturn := by
  refine ⟨?_, ?_, ?_⟩
  · simp only [isNameByte, isNameStart, Byte.isLetter, Byte.isDigit, Bool.or_eq_true,
      Bool.and_eq_true, decide_eq_true_eq, beq_iff_eq] at h
    grind
  · rintro rfl
    exact absurd h (by decide)
  · rintro rfl
    exact absurd h (by decide)

theorem isNameByte_of_mem_takeName {text : Text} {b : UInt8} (h : b ∈ takeName text) :
    isNameByte b := by
  cases text with
  | nil => simp [takeName] at h
  | cons first rest =>
    by_cases hfirst : isNameStart first
    · simp only [takeName, hfirst, if_true, List.mem_cons] at h
      rcases h with rfl | h
      · simp [isNameByte, hfirst]
      · exact List.mem_takeWhile_imp h
    · simp [takeName, hfirst] at h

-- A name goes on as far as name bytes do.
theorem not_isNameByte_behind_takeName {text : Text} (hne : takeName text ≠ []) :
    ∀ b, (text.drop (takeName text).length).head? = some b → ¬ isNameByte b := by
  intro b hb
  cases text with
  | nil => exact absurd rfl hne
  | cons first rest =>
    have hname : takeName (first :: rest) = first :: rest.takeWhile isNameByte :=
      if_pos (isNameStart_of_takeName hne)
    have hdrop := congrArg (List.drop (rest.takeWhile isNameByte).length)
      (List.takeWhile_append_dropWhile (p := isNameByte) (l := rest))
    rw [List.drop_left] at hdrop
    have hstop := List.head?_dropWhile_not isNameByte rest
    rw [hname, List.length_cons, List.drop_succ_cons, ← hdrop] at hb
    rw [hb] at hstop
    simpa using hstop

/-! ## The end of a start tag -/

-- The size counts from `seen` on and stays inside of the text.
theorem bounds_of_tagEnd_closed {quote : Option UInt8} {slash selfClosing : Bool}
    {seen size : Nat} {text : Text}
    (h : tagEnd quote slash seen text = .closed selfClosing size) :
    seen < size ∧ size ≤ seen + text.length := by
  induction text generalizing quote slash seen with
  | nil => simp [tagEnd] at h
  | cons b rest ih =>
    rw [List.length_cons]
    cases quote with
    | some q =>
      rw [tagEnd] at h
      have := ih h
      omega
    | none =>
      rw [tagEnd] at h
      split_ifs at h
      · have := ih h
        omega
      · simp only [TagEnd.closed.injEq] at h
        omega
      · have := ih h
        omega

theorem bounds_of_tagEnd_abandoned {quote : Option UInt8} {slash : Bool} {seen size : Nat}
    {text : Text} (h : tagEnd quote slash seen text = .abandoned size) :
    seen ≤ size ∧ size < seen + text.length := by
  induction text generalizing quote slash seen with
  | nil => simp [tagEnd] at h
  | cons b rest ih =>
    rw [List.length_cons]
    cases quote with
    | some q =>
      rw [tagEnd] at h
      have := ih h
      omega
    | none =>
      rw [tagEnd] at h
      split_ifs at h
      · have := ih h
        omega
      · simp only [TagEnd.abandoned.injEq] at h
        omega
      · have := ih h
        omega

/-- What is seen of the end of a start tag in front of `limit`. A tag is abandoned only where the
`<` that interrupts it is seen. -/
def TagEnd.upTo (limit : Nat) : TagEnd → TagEnd
  | .closed selfClosing size => if size ≤ limit then .closed selfClosing size else .unterminated
  | .abandoned size => if size < limit then .abandoned size else .unterminated
  | .unterminated => .unterminated

-- A cut leaves the end of a tag as it is if it is seen in front of the cut, by induction on the
-- text.
theorem tagEnd_take (quote : Option UInt8) (slash : Bool) (seen : Nat) (text : Text) (c : Nat) :
    tagEnd quote slash seen (text.take c) = (tagEnd quote slash seen text).upTo (seen + c) := by
  induction text generalizing quote slash seen c with
  | nil => simp [tagEnd, TagEnd.upTo]
  | cons b rest ih =>
    cases c with
    | zero =>
      -- Nothing is left to scan, and whatever the whole text's scan finds lies behind the cut.
      rw [List.take_zero]
      cases h : tagEnd quote slash seen (b :: rest) with
      | closed selfClosing size =>
        have := bounds_of_tagEnd_closed h
        simp only [tagEnd, TagEnd.upTo]
        rw [if_neg (by omega)]
      | abandoned size =>
        have := bounds_of_tagEnd_abandoned h
        simp only [tagEnd, TagEnd.upTo]
        rw [if_neg (by omega)]
      | unterminated => rfl
    | succ c =>
      have hlimit : seen + (c + 1) = seen + 1 + c := by omega
      rw [List.take_succ_cons, hlimit]
      cases quote with
      | some q =>
        rw [tagEnd, tagEnd]
        exact ih _ _ _ _
      | none =>
        rw [tagEnd, tagEnd]
        split_ifs
        · exact ih _ _ _ _
        · simp only [TagEnd.upTo]
          rw [if_pos (by omega)]
        · simp only [TagEnd.upTo]
          rw [if_pos (by omega)]
        · exact ih _ _ _ _

/-! ## Terminators -/

-- A terminator is found in the cut just when it ends there.
theorem pastFirst_take {terminator : Text} (hne : terminator ≠ []) (skip : Nat) (text : Text)
    (c : Nat) :
    pastFirst terminator skip (text.take c) = (pastFirst terminator skip text).filter (· ≤ c) := by
  have hlen := List.length_pos_iff.mpr hne
  unfold pastFirst
  rw [List.drop_take, Text.indexOf_take]
  cases Text.indexOf terminator (text.drop skip) with
  | none => rfl
  | some i =>
    have hiff : i + terminator.length ≤ c - skip ↔ skip + i + terminator.length ≤ c := by omega
    by_cases hfits : i + terminator.length ≤ c - skip
    · rw [Option.filter_some_pos (by simpa using hfits), Option.map_some,
        Option.filter_some_pos (by simpa using hiff.mp hfits)]
    · rw [Option.filter_some_neg (by simpa using hfits), Option.map_some,
        Option.filter_some_neg (by simpa using mt hiff.mpr hfits), Option.map_none]

-- The opener and the terminator both fit in front of the end.
theorem bounds_of_pastFirst {terminator : Text} {skip size : Nat} {text : Text}
    (h : pastFirst terminator skip text = some size) (hne : terminator ≠ []) :
    skip + terminator.length ≤ size ∧ size ≤ text.length := by
  have hlen := List.length_pos_iff.mpr hne
  obtain ⟨i, hi, rfl⟩ := Option.map_eq_some_iff.mp h
  have hp := (Text.indexOf_eq_some_iff.mp hi).1.length_le
  rw [List.length_drop, List.length_drop] at hp
  omega

/-! ## What a `<` begins -/

def TagEnd.piece (name : Text) : TagEnd → Piece
  | .closed false size => .found .opened name (1 + name.length + size)
  | .closed true size => .found .selfClosed name (1 + name.length + size)
  | .abandoned size => .skipped (1 + name.length + size)
  | .unterminated => .unterminated

def startTag (text : Text) : Piece :=
  if takeName text = [] then .skipped 1
  else (tagEnd none false 0 (text.drop (takeName text).length)).piece (takeName text)

def comment (text : Text) : Piece :=
  match pastFirst (utf8 "-->") 4 text with
  | some size => .found .comment [] size
  | none => .unterminated

def endTag (text : Text) : Piece :=
  match pastFirst (utf8 ">") 0 text with
  | some size => .found .closed (takeName (text.drop 2)) size
  | none => .unterminated

theorem construct_single : construct [Byte.less] = .skipped 1 := by decide

-- Behind `<!` it depends on what follows: a comment, character data or a declaration.
theorem construct_bang (rest : Text) :
    construct (Byte.less :: Byte.bang :: rest) =
      if utf8 "--" <+: rest then comment (Byte.less :: Byte.bang :: rest)
      else if utf8 "[CDATA[" <+: rest then
        skipPast (utf8 "]]>") 9 (Byte.less :: Byte.bang :: rest)
      else skipPast (utf8 ">") 2 (Byte.less :: Byte.bang :: rest) := by
  have hcomment : (utf8 "<!--").isPrefixOf (Byte.less :: Byte.bang :: rest) =
      (utf8 "--").isPrefixOf rest := rfl
  have hdata : (utf8 "<![CDATA[").isPrefixOf (Byte.less :: Byte.bang :: rest) =
      (utf8 "[CDATA[").isPrefixOf rest := rfl
  have hinstruction : (utf8 "<?").isPrefixOf (Byte.less :: Byte.bang :: rest) = false := rfl
  have hdeclaration : (utf8 "<!").isPrefixOf (Byte.less :: Byte.bang :: rest) = true := rfl
  simp only [construct, hcomment, hdata, hinstruction, hdeclaration, List.isPrefixOf_iff_prefix,
    if_true, Bool.false_eq_true, if_false]
  rfl

theorem construct_question (rest : Text) :
    construct (Byte.less :: Byte.question :: rest) =
      skipPast (utf8 "?>") 2 (Byte.less :: Byte.question :: rest) := rfl

theorem construct_slash (rest : Text) :
    construct (Byte.less :: Byte.slash :: rest) =
      endTag (Byte.less :: Byte.slash :: rest) := rfl

theorem construct_other {b : UInt8} (hbang : b ≠ Byte.bang) (hquestion : b ≠ Byte.question)
    (hslash : b ≠ Byte.slash) (rest : Text) :
    construct (Byte.less :: b :: rest) = startTag (b :: rest) := by
  have hskip (a : UInt8) (more : Text) (hne : b ≠ a) :
      (Byte.less :: a :: more).isPrefixOf (Byte.less :: b :: rest) = false := by
    simp [List.isPrefixOf, Ne.symm hne]
  have hcomment : (utf8 "<!--").isPrefixOf (Byte.less :: b :: rest) = false :=
    hskip Byte.bang (utf8 "--") hbang
  have hdata : (utf8 "<![CDATA[").isPrefixOf (Byte.less :: b :: rest) = false :=
    hskip Byte.bang (utf8 "[CDATA[") hbang
  have hinstruction : (utf8 "<?").isPrefixOf (Byte.less :: b :: rest) = false :=
    hskip Byte.question [] hquestion
  have hdeclaration : (utf8 "<!").isPrefixOf (Byte.less :: b :: rest) = false :=
    hskip Byte.bang [] hbang
  have hend : (utf8 "</").isPrefixOf (Byte.less :: b :: rest) = false :=
    hskip Byte.slash [] hslash
  have hdrop (n : Nat) : (Byte.less :: b :: rest).drop (1 + n) = (b :: rest).drop n := by
    rw [Nat.add_comm, List.drop_succ_cons]
  simp only [construct, hcomment, hdata, hinstruction, hdeclaration, hend, Bool.false_eq_true,
    if_false, hdrop]
  rfl

inductive Found (rest : Text) : EventKind → Text → Nat → Prop where
  | comment {size : Nat} (hopener : utf8 "!--" <+: rest)
      (hend : pastFirst (utf8 "-->") 4 (Byte.less :: rest) = some size) :
      Found rest .comment [] size
  | endTag {more : Text} {size : Nat} (hopener : rest = Byte.slash :: more)
      (hend : pastFirst (utf8 ">") 0 (Byte.less :: rest) = some size) :
      Found rest .closed (takeName more) size
  | startTag {selfClosing : Bool} {size : Nat} (hname : takeName rest ≠ [])
      (hend : tagEnd none false 0 (rest.drop (takeName rest).length) = .closed selfClosing size) :
      Found rest (if selfClosing then .selfClosed else .opened) (takeName rest)
        (1 + (takeName rest).length + size)

theorem found_of_startTag {rest name : Text} {kind : EventKind} {size : Nat}
    (h : startTag rest = .found kind name size) : Found rest kind name size := by
  unfold startTag at h
  split_ifs at h with hname
  cases hend : tagEnd none false 0 (rest.drop (takeName rest).length) with
  | closed selfClosing seen =>
    rw [hend] at h
    have hfound := Found.startTag hname hend
    cases selfClosing <;> obtain ⟨rfl, rfl, rfl⟩ := Piece.found.inj h <;> exact hfound
  | abandoned seen =>
    rw [hend] at h
    exact absurd h (by simp [TagEnd.piece])
  | unterminated =>
    rw [hend] at h
    exact absurd h (by simp [TagEnd.piece])

/-- An event is that of a comment, an end tag or a start tag. -/
theorem found_of_construct {rest name : Text} {kind : EventKind} {size : Nat}
    (h : construct (Byte.less :: rest) = .found kind name size) : Found rest kind name size := by
  have hskip (terminator : Text) (skip : Nat) (text : Text) :
      skipPast terminator skip text ≠ .found kind name size := by
    unfold skipPast
    split <;> simp
  cases rest with
  | nil =>
    rw [construct_single] at h
    simp at h
  | cons b more =>
    by_cases hbang : b = Byte.bang
    · subst hbang
      rw [construct_bang] at h
      split_ifs at h with hdashes
      · unfold comment at h
        split at h
        · rename_i hend
          obtain ⟨rfl, rfl, rfl⟩ := Piece.found.inj h
          exact .comment (List.cons_prefix_cons.mpr ⟨rfl, hdashes⟩) hend
        · simp at h
      · exact absurd h (hskip _ _ _)
      · exact absurd h (hskip _ _ _)
    by_cases hquestion : b = Byte.question
    · subst hquestion
      rw [construct_question] at h
      exact absurd h (hskip _ _ _)
    by_cases hslash : b = Byte.slash
    · subst hslash
      rw [construct_slash, endTag] at h
      split at h
      · rename_i hend
        obtain ⟨rfl, rfl, rfl⟩ := Piece.found.inj h
        exact .endTag rfl hend
      · simp at h
    rw [construct_other hbang hquestion hslash] at h
    exact found_of_startTag h

/-! ## Sizes -/

def Piece.size? : Piece → Option Nat
  | .skipped size => some size
  | .found _ _ size => some size
  | .unterminated => none

/-- A piece covers no more than `limit` bytes, but all of its event's name and brackets. -/
structure Piece.Fits (limit : Nat) (p : Piece) : Prop where
  pos : ∀ size, p.size? = some size → 0 < size
  le : ∀ size, p.size? = some size → size ≤ limit
  name : ∀ kind name size, p = .found kind name size → name.length + 2 ≤ size

theorem fits_unterminated (limit : Nat) : Piece.unterminated.Fits limit :=
  ⟨by simp [Piece.size?], by simp [Piece.size?], by simp⟩

theorem fits_skipped {limit size : Nat} (hpos : 0 < size) (hle : size ≤ limit) :
    (Piece.skipped size).Fits limit :=
  ⟨by simp [Piece.size?, hpos], by simp [Piece.size?, hle], by simp⟩

theorem fits_found {kind : EventKind} {name : Text} {limit size : Nat}
    (hname : name.length + 2 ≤ size) (hle : size ≤ limit) :
    (Piece.found kind name size).Fits limit := by
  refine ⟨?_, by simp [Piece.size?, hle], ?_⟩
  · simp only [Piece.size?, Option.some.injEq]
    omega
  · rintro _ _ _ ⟨⟩
    exact hname

-- What is stepped over ends inside of the text.
theorem skipPast_fits (terminator : Text) (hne : terminator ≠ []) (skip : Nat) (text : Text) :
    (skipPast terminator skip text).Fits text.length := by
  have hlen := List.length_pos_iff.mpr hne
  unfold skipPast
  split
  · rename_i size hsize
    have hb := bounds_of_pastFirst hsize hne
    exact fits_skipped (by omega) hb.2
  · exact fits_unterminated _

theorem comment_fits (text : Text) : (comment text).Fits text.length := by
  unfold comment
  split
  · rename_i size hsize
    obtain ⟨hlo, hhi⟩ := bounds_of_pastFirst hsize (by decide)
    have hterm : (utf8 "-->").length = 3 := rfl
    exact fits_found (by simp only [List.length_nil]; omega) hhi
  · exact fits_unterminated _

theorem construct_bang_fits (more : Text) :
    (construct (Byte.less :: Byte.bang :: more)).Fits (more.length + 2) := by
  rw [construct_bang]
  split_ifs
  · exact comment_fits (Byte.less :: Byte.bang :: more)
  · exact skipPast_fits (utf8 "]]>") (by decide) 9 (Byte.less :: Byte.bang :: more)
  · exact skipPast_fits (utf8 ">") (by decide) 2 (Byte.less :: Byte.bang :: more)

theorem singleton_prefix_drop_iff {b : UInt8} {text : Text} {i : Nat} :
    [b] <+: text.drop i ↔ text[i]? = some b := by
  rw [List.singleton_prefix_iff_head?_eq_some, List.head?_drop]

-- The name of an end tag ends in front of its `>`.
theorem name_length_endTag {more : Text} {size : Nat}
    (h : pastFirst (utf8 ">") 0 (Byte.less :: Byte.slash :: more) = some size) :
    (takeName more).length + 2 ≤ size := by
  obtain ⟨i, hi, rfl⟩ := Option.map_eq_some_iff.mp h
  have hat : (Byte.less :: Byte.slash :: more)[i]? = some Byte.greater :=
    singleton_prefix_drop_iff.mp (Text.indexOf_eq_some_iff.mp hi).1
  have hterm : (utf8 ">").length = 1 := rfl
  -- The `>` that was found is no name byte, so it cannot stand in the name, nor in the opener.
  by_contra hlt
  match i, hat with
  | 0, hat => exact absurd (Option.some.inj hat) (by decide)
  | 1, hat => exact absurd (Option.some.inj hat) (by decide)
  | k + 2, hat =>
    rw [List.getElem?_cons_succ, List.getElem?_cons_succ] at hat
    have hk : k < (takeName more).length := by omega
    obtain ⟨tail, htail⟩ := isPrefix_takeName more
    have hname : (takeName more ++ tail)[k]? = some Byte.greater :=
      (congrArg (·[k]?) htail).trans hat
    rw [List.getElem?_append_left hk] at hname
    exact absurd (isNameByte_of_mem_takeName (List.mem_of_getElem? hname)) (by decide)

theorem endTag_fits (more : Text) :
    (endTag (Byte.less :: Byte.slash :: more)).Fits (more.length + 2) := by
  unfold endTag
  split
  · rename_i size hsize
    exact fits_found (name_length_endTag hsize) (bounds_of_pastFirst hsize (by decide)).2
  · exact fits_unterminated _

theorem startTag_fits (text : Text) : (startTag text).Fits (text.length + 1) := by
  have hname := (isPrefix_takeName text).length_le
  unfold startTag
  split
  · exact fits_skipped (by omega) (by omega)
  · rename_i hne
    have hpos := List.length_pos_iff.mpr hne
    have hrest : (text.drop (takeName text).length).length = text.length - (takeName text).length :=
      List.length_drop
    cases hend : tagEnd none false 0 (text.drop (takeName text).length) with
    | closed selfClosing size =>
      have := bounds_of_tagEnd_closed hend
      cases selfClosing <;> exact fits_found (by omega) (by omega)
    | abandoned size =>
      have := bounds_of_tagEnd_abandoned hend
      exact fits_skipped (by omega) (by omega)
    | unterminated => exact fits_unterminated _

theorem construct_fits (rest : Text) :
    (construct (Byte.less :: rest)).Fits (rest.length + 1) := by
  cases rest with
  | nil => exact fits_skipped (by omega) (by simp)
  | cons b more =>
    by_cases hbang : b = Byte.bang
    · subst hbang
      exact construct_bang_fits more
    by_cases hquestion : b = Byte.question
    · subst hquestion
      exact skipPast_fits (utf8 "?>") (by decide) 2
        (Byte.less :: Byte.question :: more)
    by_cases hslash : b = Byte.slash
    · subst hslash
      exact endTag_fits more
    rw [construct_other hbang hquestion hslash]
    exact startTag_fits (b :: more)

-- Every piece takes at least one byte, so the scan comes to an end.
theorem piece_fits (b : UInt8) (rest : Text) : (piece b rest).Fits (rest.length + 1) := by
  unfold piece
  split
  · rename_i hb
    exact hb ▸ construct_fits rest
  · exact fits_skipped (by omega) (by omega)

/-! ## Cutting a text off -/

/-- A piece as far as it is seen in front of `limit`. -/
def Piece.upTo (limit : Nat) (p : Piece) : Piece :=
  match p with
  | .skipped size => if size ≤ limit then p else .unterminated
  | .found _ _ size => if size ≤ limit then p else .unterminated
  | .unterminated => .unterminated

-- A piece that ends in front of the cut is seen as a whole.
theorem Piece.upTo_of_le {limit size : Nat} {p : Piece} (h : p.size? = some size)
    (hle : size ≤ limit) : p.upTo limit = p := by
  cases p with
  | skipped n => exact if_pos (Option.some.inj h ▸ hle)
  | found kind name n => exact if_pos (Option.some.inj h ▸ hle)
  | unterminated => rfl

theorem skipped_upTo {limit size : Nat} (hle : size ≤ limit) :
    (Piece.skipped size).upTo limit = .skipped size :=
  if_pos hle

-- One that ends behind the cut is not seen to end.
theorem Piece.upTo_of_lt {limit size : Nat} {p : Piece} (h : p.size? = some size)
    (hlt : limit < size) : p.upTo limit = .unterminated := by
  cases p with
  | skipped n => exact if_neg (Option.some.inj h ▸ Nat.not_le.mpr hlt)
  | found kind name n => exact if_neg (Option.some.inj h ▸ Nat.not_le.mpr hlt)
  | unterminated => rfl

/-- What a piece becomes when the text behind `limit` is cut off. A start tag that is abandoned
right at the cut is no longer seen to be. -/
def Piece.Cut (limit : Nat) (whole cut : Piece) : Prop :=
  cut = whole.upTo limit ∨ whole = .skipped limit ∧ cut = .unterminated

-- A cut comes behind a piece, which stays, or goes through it and leaves it without an end.
theorem Piece.Cut.stays_or_breaks {limit : Nat} {whole cut : Piece} (h : whole.Cut limit cut) :
    (cut = whole ∧ ∀ size, whole.size? = some size → size ≤ limit) ∨
      (cut = .unterminated ∧ (∀ size, whole.size? = some size → limit ≤ size) ∧
        ∀ kind name, whole ≠ .found kind name limit) := by
  -- The second case is the tag that is abandoned right at the cut.
  rcases h with hcut | ⟨rfl, hcut⟩
  · cases hsize : whole.size? with
    | none =>
      have hnone : whole = .unterminated := by cases whole <;> simp_all [Piece.size?]
      exact .inl ⟨by rw [hcut, hnone]; rfl, by simp⟩
    | some size =>
      by_cases hle : size ≤ limit
      · exact .inl ⟨hcut.trans (upTo_of_le hsize hle), by simpa using hle⟩
      · refine .inr ⟨hcut.trans (upTo_of_lt hsize (by omega)), ?_, ?_⟩
        · simp only [Option.some.injEq]
          omega
        · rintro kind name rfl
          exact hle (Option.some.inj hsize).ge
  · exact .inr ⟨hcut, by simp [Piece.size?], by simp⟩

-- Where a comment ends is decided in front of its end.
theorem comment_take (text : Text) (c : Nat) : comment (text.take c) = (comment text).upTo c := by
  unfold comment
  rw [pastFirst_take (by decide)]
  cases pastFirst (utf8 "-->") 4 text with
  | none => rfl
  | some size => by_cases h : size ≤ c <;> simp [Option.filter_some, Piece.upTo, h]

theorem skipPast_take {terminator : Text} (hne : terminator ≠ []) (skip : Nat) (text : Text)
    (c : Nat) :
    skipPast terminator skip (text.take c) = (skipPast terminator skip text).upTo c := by
  unfold skipPast
  rw [pastFirst_take hne]
  cases pastFirst terminator skip text with
  | none => rfl
  | some size => by_cases h : size ≤ c <;> simp [Option.filter_some, Piece.upTo, h]

theorem endTag_take (more : Text) (c : Nat) :
    endTag ((Byte.less :: Byte.slash :: more).take c) =
      (endTag (Byte.less :: Byte.slash :: more)).upTo c := by
  unfold endTag
  rw [pastFirst_take (by decide)]
  cases h : pastFirst (utf8 ">") 0 (Byte.less :: Byte.slash :: more) with
  | none => rfl
  | some size =>
    by_cases hc : size ≤ c
    · have hname := name_length_endTag h
      have hsame :
          takeName (((Byte.less :: Byte.slash :: more).take c).drop 2) = takeName more := by
        rw [List.drop_take, List.drop_succ_cons, List.drop_succ_cons, List.drop_zero, takeName_take,
          List.take_of_length_le (by omega)]
      simp only [Option.filter_some, decide_eq_true_eq, hc, if_true, hsame, Piece.upTo]
      rfl
    · simp [Option.filter_some, Piece.upTo, hc]

-- A start tag whose end is seen in front of a cut, or is not.
theorem TagEnd.cut_piece (name : Text) (e : TagEnd) (limit : Nat) :
    (e.piece name).Cut (1 + name.length + limit) ((e.upTo limit).piece name) := by
  cases e with
  | closed selfClosing size =>
    left
    have hiff : 1 + name.length + size ≤ 1 + name.length + limit ↔ size ≤ limit := by omega
    cases selfClosing <;> by_cases hsize : size ≤ limit <;>
      simp [TagEnd.upTo, TagEnd.piece, Piece.upTo, hiff, hsize]
  | abandoned size =>
    by_cases heq : size = limit
    · right
      simp [TagEnd.upTo, TagEnd.piece, heq]
    · left
      have hiff : 1 + name.length + size ≤ 1 + name.length + limit ↔ size < limit := by omega
      by_cases hsize : size < limit <;>
        simp [TagEnd.upTo, TagEnd.piece, Piece.upTo, hiff, hsize]
  | unterminated => exact .inl rfl

-- A cut through the name leaves no tag.
theorem TagEnd.upTo_piece_of_le {name : Text} {limit : Nat} (hlimit : limit ≤ name.length)
    (e : TagEnd) : (e.piece name).upTo limit = .unterminated := by
  cases e with
  | closed selfClosing size => cases selfClosing <;> exact if_neg (by omega)
  | abandoned size => exact if_neg (by omega)
  | unterminated => rfl

-- Only a start tag is seen differently from a cut: not knowing the `<` that interrupts it, it has
-- no end.
theorem startTag_take (text : Text) {c : Nat} (hc : 0 < c) :
    (startTag text).Cut (c + 1) (startTag (text.take c)) := by
  unfold startTag
  rw [takeName_take]
  by_cases hname : takeName text = []
  · left
    simp [hname, Piece.upTo]
  · have hpos := List.length_pos_iff.mpr hname
    have hcut : (takeName text).take c ≠ [] := by
      simp only [ne_eq, List.take_eq_nil_iff, hname, or_false]
      omega
    rw [if_neg hcut, if_neg hname]
    by_cases hlong : (takeName text).length ≤ c
    · have hlimit : c + 1 = 1 + (takeName text).length + (c - (takeName text).length) := by omega
      rw [List.take_of_length_le hlong, List.drop_take, tagEnd_take, Nat.zero_add, hlimit]
      exact TagEnd.cut_piece _ _ _
    -- The cut goes through the name, so that nothing of the tag's end is left.
    · left
      have hnil : (text.take c).drop ((takeName text).take c).length = [] := by
        rw [List.length_take, List.drop_eq_nil_iff, List.length_take]
        omega
      rw [hnil, TagEnd.upTo_piece_of_le (by omega)]
      rfl

-- A declaration whose opener is cut off has no end.
theorem skipPast_of_cut_opener {opener rest : Text} (hopener : opener <+: rest)
    (hfree : Byte.greater ∉ opener) {c : Nat} (hc : c < opener.length) :
    skipPast (utf8 ">") 2 (Byte.less :: Byte.bang :: rest.take c) = .unterminated := by
  have hfront : rest.take c <+: opener :=
    List.prefix_of_prefix_length_le (List.take_prefix c rest) hopener
      (by rw [List.length_take]; omega)
  -- All that is left is a part of the opener, which has no `>`.
  have hnone : Text.indexOf (utf8 ">") (rest.take c) = none := by
    rw [Text.indexOf_eq_none_iff]
    intro j hj
    exact hfree (hfront.mem (List.mem_of_getElem? (singleton_prefix_drop_iff.mp hj)))
  have hpast : pastFirst (utf8 ">") 2 (Byte.less :: Byte.bang :: rest.take c) = none := by
    unfold pastFirst
    rw [List.drop_succ_cons, List.drop_succ_cons, List.drop_zero, hnone, Option.map_none]
  unfold skipPast
  rw [hpast]

-- A terminator cannot stand in front of the place from which it is looked for.
theorem skipPast_upTo_of_lt {terminator : Text} (hne : terminator ≠ []) {skip limit : Nat}
    (hlimit : limit < skip + terminator.length) (text : Text) :
    (skipPast terminator skip text).upTo limit = .unterminated := by
  unfold skipPast
  split
  · rename_i size hsize
    have := bounds_of_pastFirst hsize hne
    exact if_neg (by omega)
  · rfl

theorem comment_upTo_of_lt {limit : Nat} (hlimit : limit < 7) (text : Text) :
    (comment text).upTo limit = .unterminated := by
  unfold comment
  split
  · rename_i size hsize
    have hlo : 4 + 3 ≤ size := (bounds_of_pastFirst hsize (by decide)).1
    exact if_neg (by omega)
  · rfl

-- Two bytes tell that it is no tag; what it is instead is told by those that follow.
theorem construct_bang_take (more : Text) (c : Nat) :
    construct (Byte.less :: Byte.bang :: more.take c) =
      (construct (Byte.less :: Byte.bang :: more)).upTo (c + 2) := by
  have htake : Byte.less :: Byte.bang :: more.take c =
    (Byte.less :: Byte.bang :: more).take (c + 2) := rfl
  rw [construct_bang, construct_bang]
  simp only [List.prefix_take_iff]
  by_cases hcomment : utf8 "--" <+: more
  -- The two openers exclude each other; when the cut goes through one, what is left looks like a
  -- declaration that does not end.
  · have hdata : ¬ utf8 "[CDATA[" <+: more := by
      intro hdata
      exact absurd (List.prefix_of_prefix_length_le hcomment hdata (by decide)) (by decide)
    by_cases hc : (utf8 "--").length ≤ c
    · rw [if_pos ⟨hcomment, hc⟩, if_pos hcomment, htake, comment_take]
    · rw [if_neg (fun h => hc h.2), if_neg (fun h => hdata h.1), if_pos hcomment,
        skipPast_of_cut_opener hcomment (by decide) (by omega),
        comment_upTo_of_lt (by have : (utf8 "--").length = 2 := rfl; omega)]
  · rw [if_neg (fun h => hcomment h.1), if_neg hcomment]
    by_cases hdata : utf8 "[CDATA[" <+: more
    · by_cases hc : (utf8 "[CDATA[").length ≤ c
      · rw [if_pos ⟨hdata, hc⟩, if_pos hdata, htake, skipPast_take (by decide)]
      · rw [if_neg (fun h => hc h.2), if_pos hdata,
          skipPast_of_cut_opener hdata (by decide) (by omega),
          skipPast_upTo_of_lt (by decide) (by
            have : (utf8 "[CDATA[").length = 7 := rfl
            have : (utf8 "]]>").length = 3 := rfl
            omega)]
    · rw [if_neg (fun h => hdata h.1), if_neg hdata, htake, skipPast_take (by decide)]

/-- A `<` in front of a cut, but not right in front of it, begins what it began before. -/
theorem construct_take (b : UInt8) (more : Text) (c : Nat) :
    (construct (Byte.less :: b :: more)).Cut (c + 2)
      (construct (Byte.less :: b :: more.take c)) := by
  by_cases hbang : b = Byte.bang
  · subst hbang
    exact .inl (construct_bang_take more c)
  by_cases hquestion : b = Byte.question
  · subst hquestion
    exact .inl (skipPast_take (by decide) 2 (Byte.less :: Byte.question :: more) (c + 2))
  by_cases hslash : b = Byte.slash
  · subst hslash
    exact .inl (endTag_take more (c + 2))
  rw [construct_other hbang hquestion hslash, construct_other hbang hquestion hslash]
  exact startTag_take (b :: more) (Nat.succ_pos c)

end SvgAssist.Markup
