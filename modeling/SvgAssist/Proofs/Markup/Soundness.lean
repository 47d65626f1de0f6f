import SvgAssist.Proofs.Markup.Edges
import SvgAssist.Proofs.Markup.Value

/-!
# Soundness of the scan

A scan is a run of steps, each of which goes on behind what it finds, or stops (`advance`). What it
reports on the way stands in the text as the event says: `Event.Sound` says what this is for each
kind of event, and `scan_sound` that it holds of all that is reported.
-/

namespace SvgAssist.Markup

/-! ## Steps -/

/-- Where the scan goes on from an offset, with what it reports there. It stops at the end of the
text and at a construct without an end. -/
def advance (text : Text) (offset : Nat) : Option (Nat × List Event) :=
  match text.drop offset with
  | [] => none
  | b :: rest => (piece b rest).size?.map fun size => (offset + size, (piece b rest).events offset)

/-- The scan comes to an offset, and has reported these events on the way. -/
inductive Visits (text : Text) : Nat → List Event → Prop where
  | start : Visits text 0 []
  | step {i j : Nat} {found more : List Event} (h : Visits text i found)
      (hstep : advance text i = some (j, more)) : Visits text j (found ++ more)

/-- A step leads on, and not out of the text. -/
theorem bounds_of_advance {text : Text} {i j : Nat} {more : List Event}
    (h : advance text i = some (j, more)) : i < j ∧ j ≤ text.length := by
  unfold advance at h
  split at h
  · simp at h
  · rename_i b rest hdrop
    obtain ⟨size, hsize, hstep⟩ := Option.map_eq_some_iff.mp h
    obtain ⟨rfl, -⟩ := Prod.mk.inj hstep
    have hpos := (piece_fits b rest).pos size hsize
    have hle := (piece_fits b rest).le size hsize
    have hlen := congrArg List.length hdrop
    rw [List.length_drop, List.length_cons] at hlen
    omega

-- The scan never goes past the end.
theorem Visits.le_length {text : Text} {i : Nat} {found : List Event} (h : Visits text i found) :
    i ≤ text.length := by
  cases h with
  | start => exact Nat.zero_le _
  | step h hstep => exact (bounds_of_advance hstep).2

-- Where a piece ends, the scan goes on behind it.
theorem advance_of_size {text rest : Text} {b : UInt8} {offset size : Nat}
    (hdrop : text.drop offset = b :: rest) (hsize : (piece b rest).size? = some size) :
    advance text offset = some (offset + size, (piece b rest).events offset) := by
  rw [advance, hdrop]
  simp only [hsize, Option.map_some]

-- What is left of a text behind a piece.
theorem drop_add_size {text rest : Text} {b : UInt8} {offset size : Nat} (hpos : 0 < size)
    (hdrop : text.drop offset = b :: rest) :
    text.drop (offset + size) = rest.drop (size - 1) := by
  obtain ⟨n, rfl⟩ := Nat.exists_eq_add_of_le' hpos
  rw [← List.drop_drop, hdrop, List.drop_succ_cons, Nat.add_sub_cancel]

/-- From where it is, the scan goes on until it stops, and reports the events that are left. -/
theorem Visits.exists_stop {text rest : Text} {offset : Nat} {found : List Event}
    (h : Visits text offset found) (hrest : text.drop offset = rest) :
    ∃ stop, Visits text stop (found ++ eventsFrom offset rest) ∧ advance text stop = none := by
  fun_induction eventsFrom offset rest generalizing found with
  | case1 offset =>
    refine ⟨offset, by rwa [List.append_nil], ?_⟩
    rw [advance, hrest]
  | case2 offset b rest hpiece =>
    refine ⟨offset, by rwa [List.append_nil], ?_⟩
    rw [advance, hrest]
    simp only [hpiece, Piece.size?, Option.map_none]
  | case3 offset b rest size hpiece ih =>
    have hsize : (piece b rest).size? = some size := by rw [hpiece]; rfl
    have hpos := (piece_fits b rest).pos size hsize
    have hstep := h.step (advance_of_size hrest hsize)
    rw [hpiece, Piece.events, List.append_nil] at hstep
    exact ih hstep (drop_add_size hpos hrest)
  | case4 offset b rest kind name size hpiece ih =>
    have hsize : (piece b rest).size? = some size := by rw [hpiece]; rfl
    have hpos := (piece_fits b rest).pos size hsize
    have hstep := h.step (advance_of_size hrest hsize)
    rw [hpiece, Piece.events] at hstep
    obtain ⟨stop, hvisits, hstop⟩ := ih hstep (drop_add_size hpos hrest)
    rw [List.append_assoc, List.singleton_append] at hvisits
    exact ⟨stop, hvisits, hstop⟩

/-! ## Names -/

structure LongestName (name text : Text) : Prop where
  isPrefix : name <+: text
  isName : name = [] ∨ IsName name
  longest : ∀ other, IsName other → other <+: text → other <+: name

-- A longer name would have one more byte that may stand in it.
theorem longestName_takeName (text : Text) : LongestName (takeName text) text where
  isPrefix := isPrefix_takeName text
  isName := by
    by_cases hne : takeName text = []
    · exact .inl hne
    · exact .inr (isName_iff.mpr ⟨takeName_takeName text, hne⟩)
  longest := by
    intro other hname hother
    have htake := takeName_take text other.length
    rw [← List.prefix_iff_eq_take.mp hother, (isName_iff.mp hname).1] at htake
    rw [htake]
    exact List.take_prefix _ _

/-! ## Start tags -/

/-- What can stand between the name of a start tag and its end: bytes that are no quotes and no
angle brackets, and values between two quotes of a kind, which hold any byte but that quote. -/
inductive Balanced : Text → Prop where
  | nil : Balanced []
  | plain {b : UInt8} {rest : Text} (hquote : b ≠ Byte.doubleQuote ∧ b ≠ Byte.singleQuote)
      (hbracket : b ≠ Byte.less ∧ b ≠ Byte.greater) (hrest : Balanced rest) : Balanced (b :: rest)
  | value {quote : UInt8} {value rest : Text}
      (hquote : quote = Byte.doubleQuote ∨ quote = Byte.singleQuote) (hvalue : quote ∉ value)
      (hrest : Balanced rest) : Balanced (quote :: (value ++ quote :: rest))

def BalancedBehind (quote : Option UInt8) (text : Text) : Prop :=
  match quote with
  | none => Balanced text
  | some q => ∃ value rest, text = value ++ q :: rest ∧ q ∉ value ∧ Balanced rest

-- Behind one more byte of a value, either its quote has come or the value goes on.
theorem BalancedBehind.cons_value {q b : UInt8} {text : Text}
    (h : BalancedBehind (if b = q then none else some q) text) :
    BalancedBehind (some q) (b :: text) := by
  split_ifs at h with hb
  · exact ⟨[], text, by rw [hb]; rfl, List.not_mem_nil, h⟩
  · obtain ⟨value, rest, rfl, hvalue, hrest⟩ := h
    exact ⟨b :: value, rest, rfl, by simp [Ne.symm hb, hvalue], hrest⟩

def endsInSlash (slash : Bool) (text : Text) : Bool :=
  (text.getLast?.map (· == Byte.slash)).getD slash

theorem endsInSlash_cons (slash : Bool) (b : UInt8) (text : Text) :
    endsInSlash slash (b :: text) = endsInSlash (b == Byte.slash) text := by
  unfold endsInSlash
  rw [List.getLast?_cons]
  cases text.getLast? <;> rfl

/-- A start tag ends at the first `>` that is in none of its values. -/
theorem exists_of_tagEnd_closed {quote : Option UInt8} {slash selfClosing : Bool} {seen size : Nat}
    {text : Text} (h : tagEnd quote slash seen text = .closed selfClosing size) :
    ∃ inside behind, text = inside ++ Byte.greater :: behind ∧ size = seen + inside.length + 1 ∧
      BalancedBehind quote inside ∧ selfClosing = endsInSlash slash inside := by
  induction text generalizing quote slash seen with
  | nil => simp [tagEnd] at h
  | cons b rest ih =>
    -- All that is seen before the end goes to the front of what is inside.
    have hcons {quote' : Option UInt8} {slash' : Bool} (hslash : slash' = (b == Byte.slash))
        (hrest : tagEnd quote' slash' (seen + 1) rest = .closed selfClosing size)
        (hbehind : ∀ inside, BalancedBehind quote' inside → BalancedBehind quote (b :: inside)) :
        ∃ inside behind, b :: rest = inside ++ Byte.greater :: behind ∧
          size = seen + inside.length + 1 ∧ BalancedBehind quote inside ∧
          selfClosing = endsInSlash slash inside := by
      obtain ⟨inside, behind, rfl, hsize, hbalanced, hself⟩ := ih hrest
      refine ⟨b :: inside, behind, rfl, ?_, hbehind inside hbalanced, ?_⟩
      · rw [List.length_cons]
        omega
      · rw [hself, endsInSlash_cons, hslash]
    cases quote with
    | some q =>
      rw [tagEnd] at h
      exact hcons rfl h fun inside hinside => hinside.cons_value
    | none =>
      rw [tagEnd] at h
      split_ifs at h with hquote hgreater hless
      · have hb : b = Byte.doubleQuote ∨ b = Byte.singleQuote := by simpa using hquote
        have hslash : false = (b == Byte.slash) := by
          rcases hb with rfl | rfl <;> rfl
        refine hcons hslash h fun inside hinside => ?_
        obtain ⟨value, rest, rfl, hvalue, hrest⟩ := hinside
        exact .value hb hvalue hrest
      · obtain ⟨rfl, rfl⟩ := TagEnd.closed.inj h
        exact ⟨[], rest, by rw [hgreater]; rfl, rfl, .nil, rfl⟩
      · have hb : b ≠ Byte.doubleQuote ∧ b ≠ Byte.singleQuote := by simpa using hquote
        exact hcons rfl h fun inside hinside => .plain hb ⟨hless, hgreater⟩ hinside

-- No name ends in a slash, so that one in front of the end of a tag is behind its name.
theorem endsInSlash_iff {name inside : Text} (hname : IsName name) :
    endsInSlash false inside = true ↔ (name ++ inside).getLast? = some Byte.slash := by
  unfold endsInSlash
  rw [List.getLast?_append]
  cases inside.getLast? with
  | some b => simp
  | none =>
    refine iff_of_false (by simp) fun hlast => ?_
    rw [Option.none_or] at hlast
    exact absurd (hname.isNameByte_of_mem _ (List.mem_of_getLast? hlast)) (by decide)

/-! ## Events -/

structure FirstFrom (terminator text : Text) (offset place : Nat) : Prop where
  le : offset ≤ place
  stands : terminator <+: text.drop place
  first : ∀ j, offset ≤ j → j < place → ¬ terminator <+: text.drop j

-- The terminator that the search finds is the first one from `skip` on.
theorem firstFrom_of_pastFirst {terminator text rest : Text} {start skip size : Nat}
    (hdrop : text.drop start = rest) (h : pastFirst terminator skip rest = some size) :
    FirstFrom terminator text (start + skip) (start + size - terminator.length) := by
  obtain ⟨i, hi, rfl⟩ := Option.map_eq_some_iff.mp h
  obtain ⟨hstands, hfirst⟩ := Text.indexOf_eq_some_iff.mp hi
  have hat (j : Nat) : (rest.drop skip).drop j = text.drop (start + skip + j) := by
    rw [← hdrop, List.drop_drop, List.drop_drop, Nat.add_assoc]
  have hplace : start + (skip + i + terminator.length) - terminator.length = start + skip + i := by
    omega
  rw [hplace]
  refine ⟨Nat.le_add_right _ _, hat i ▸ hstands, fun j hj hlt => ?_⟩
  obtain ⟨k, rfl⟩ := Nat.exists_eq_add_of_le hj
  rw [← hat]
  exact hfirst k (by omega)

structure StartTagAt (text : Text) (e : Event) : Prop where
  name_ne_nil : e.name ≠ []
  name : LongestName e.name (text.drop (e.start + 1))
  balanced : Balanced (Span.bytes text ⟨e.start + 1 + e.name.length, e.stop - 1⟩)
  selfClosed_iff : e.kind = .selfClosed ↔ text[e.stop - 2]? = some Byte.slash

structure EndTagAt (text : Text) (e : Event) : Prop where
  opener : utf8 "</" <+: text.drop e.start
  name : LongestName e.name (text.drop (e.start + 2))
  ends : FirstFrom (utf8 ">") text e.start (e.stop - 1)

/-- The bytes of a comment, which goes up to the first `-->` at or behind its fifth byte. -/
structure CommentAt (text : Text) (e : Event) : Prop where
  opener : utf8 "<!--" <+: text.drop e.start
  ends : FirstFrom (utf8 "-->") text (e.start + 4) (e.stop - 3)

def Event.Sound (text : Text) (e : Event) : Prop :=
  match e.kind with
  | .opened | .selfClosed => StartTagAt text e
  | .closed => EndTagAt text e
  | .comment => CommentAt text e

-- The bytes of a start tag are those of its name, of what stands balanced behind it, and of its
-- end.
theorem startTagAt_of_tagEnd {text rest : Text} {e : Event} {selfClosing : Bool} {size : Nat}
    (hdrop : text.drop (e.start + 1) = rest) (hname : e.name = takeName rest) (hne : e.name ≠ [])
    (hend : tagEnd none false 0 (rest.drop e.name.length) = .closed selfClosing size)
    (hstop : e.stop = e.start + (1 + e.name.length + size))
    (hkind : e.kind = .selfClosed ↔ selfClosing = true) : StartTagAt text e := by
  obtain ⟨inside, behind, hsplit, hsize, hbalanced, hself⟩ := exists_of_tagEnd_closed hend
  have hlongest : LongestName e.name rest := hname ▸ longestName_takeName rest
  have hrest : text.drop (e.start + 1) = e.name ++ inside ++ Byte.greater :: behind := by
    rw [hdrop, List.append_assoc, ← hsplit, List.prefix_iff_eq_append.mp hlongest.isPrefix]
  have hpos := List.length_pos_iff.mpr hne
  refine ⟨hne, hdrop ▸ hlongest, ?_, ?_⟩
  · have hlen : e.stop - 1 - (e.start + 1 + e.name.length) = inside.length := by omega
    rw [Span.bytes]
    simp only [hlen]
    rw [← List.drop_drop, hrest, List.append_assoc, List.drop_left, List.take_left]
    exact hbalanced
  · have hlast : e.stop - 2 = e.start + 1 + ((e.name ++ inside).length - 1) := by
      rw [List.length_append]
      omega
    have hinside : (e.name ++ inside).length - 1 < (e.name ++ inside).length := by
      rw [List.length_append]
      omega
    rw [hkind, hself, endsInSlash_iff (hlongest.isName.resolve_left hne), hlast,
      ← List.getElem?_drop, hrest, List.getElem?_append_left hinside, List.getLast?_eq_getElem?]

/-- Every event says of the text what stands there, by the kind of construct that it was found in.
-/
theorem sound_of_mem_eventsFrom {text : Text} {e : Event} (h : e ∈ eventsFrom 0 text) :
    e.Sound text := by
  obtain ⟨i, _, hstart, hdrop, tail, size, rfl, hstop, hconstruct⟩ := found_of_mem_eventsFrom h
  obtain rfl : i = e.start := by omega
  have hbehind : text.drop (e.start + 1) = tail := by
    rw [← List.drop_drop, hdrop, List.drop_succ_cons, List.drop_zero]
  obtain ⟨kind, name, start, stop⟩ := e
  simp only at hdrop hstop hbehind hconstruct
  cases found_of_construct hconstruct with
  | comment hopener hend =>
    have hends := firstFrom_of_pastFirst hdrop hend
    rw [← hstop] at hends
    refine ⟨?_, hends⟩
    simp only [hdrop]
    exact List.cons_prefix_cons.mpr ⟨rfl, hopener⟩
  | @endTag more size hopener hend =>
    have hends := firstFrom_of_pastFirst hdrop hend
    rw [← hstop] at hends
    have hname : text.drop (start + 2) = more := by
      rw [← List.drop_drop, hdrop, hopener]
      rfl
    refine ⟨?_, ?_, hends⟩
    · simp only [hdrop, hopener]
      exact List.prefix_append (utf8 "</") more
    · simp only [hname]
      exact longestName_takeName more
  | @startTag selfClosing size hname hend =>
    have htag (kind : EventKind) (hkind : kind = .selfClosed ↔ selfClosing = true) :=
      startTagAt_of_tagEnd (e := ⟨kind, takeName tail, start, stop⟩) hbehind rfl hname hend hstop
        hkind
    cases selfClosing with
    | true => exact htag .selfClosed (by simp)
    | false => exact htag .opened (by simp)

/-- Every step of a scan leads on and none leads out of the text, and the scan reports what is
reported on the way to where it stops. The events stand in order and do not overlap, each begins at
a `<` and ends behind a `>`, and what it says of the bytes in between stands there. -/
theorem scan_sound (text : Text) :
    (∀ i found, Visits text i found → i ≤ text.length ∧
      ∀ j more, advance text i = some (j, more) → i < j ∧ j ≤ text.length) ∧
    ∃ events stop, scan .unlimited text = .ok events ∧
      Visits text stop events ∧ advance text stop = none ∧
      events.Pairwise (fun a b => a.stop ≤ b.start) ∧
      ∀ e ∈ events, e.start < e.stop ∧ e.stop ≤ text.length ∧
        text[e.start]? = some Byte.less ∧ text[e.stop - 1]? = some Byte.greater ∧ e.Sound text := by
  refine ⟨fun i found hvisits => ⟨hvisits.le_length, fun j more => bounds_of_advance⟩, ?_⟩
  obtain ⟨stop, hvisits, hstop⟩ := Visits.start.exists_stop (List.drop_zero (l := text))
  refine ⟨eventsFrom 0 text, stop, scan_unlimited text, hvisits, hstop, pairwise_eventsFrom 0 text,
    fun e he => ?_⟩
  have hbounds := bounds_of_mem_eventsFrom he
  obtain ⟨hless, hgreater⟩ := edges_of_mem_eventsFrom he
  exact ⟨by omega, by omega, hless, hgreater, sound_of_mem_eventsFrom he⟩

end SvgAssist.Markup
