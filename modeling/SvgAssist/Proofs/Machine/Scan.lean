import SvgAssist.Markup.Enclosing
import SvgAssist.Proofs.Machine.Names

/-!
# The scan in machine arithmetic

The scan of tag events, with the indices at which it reads the text and the sizes of its steps, of
which -1 stands for a construct that does not end.
-/

namespace SvgAssist.Machine

open Markup (EventKind Event TagEnd Piece Budget Interrupted)

variable (m : Arithmetic)

/-! ## Constructs -/

def pastFirst (terminator : Text) (skip : Int) (text : Text) : Option Int := do
  let behind ← cut? text skip text.length
  match Text.indexOf terminator behind with
  | none => some (-1)
  | some found => some (m.add (m.add skip found) terminator.length)

inductive Ending where
  | opened
  | selfClosed
  | abandoned
  | unterminated

def tagEndStep (text : Text) :
    Option UInt8 × Int → Option (Next (Option UInt8 × Int) (Int × Ending))
  | (quote, i) =>
    if i < text.length then do
      let b ← get? text i
      match quote with
      | some q => some (.more (if b = q then none else some q, m.add i 1))
      | none =>
        if b = Byte.doubleQuote ∨ b = Byte.singleQuote then some (.more (some b, m.add i 1))
        else if b = Byte.greater then
          let before ← get? text (m.sub i 1)
          some (.done (i, if before = Byte.slash then .selfClosed else .opened))
        else if b = Byte.less then some (.done (i, .abandoned))
        else some (.more (none, m.add i 1))
    else some (.done (-1, .unterminated))

/-- Where the start tag ends whose name ends at `i`, and how: at its `>`, or at the `<` that
interrupts it. -/
def tagEnd (text : Text) (i : Int) : Option (Int × Ending) :=
  loop (tagEndStep m text) (text.length + 1) (none, i)

def endTag (text : Text) : Option (Int × Option (EventKind × Text)) :=
  match Text.indexOf (utf8 ">") text with
  | none => some (-1, none)
  | some found => do
    let behind ← cut? text 2 text.length
    let name ← takeName m behind
    some (m.add found 1, some (.closed, name))

def startTag (text : Text) : Option (Int × Option (EventKind × Text)) := do
  let behind ← cut? text 1 text.length
  let name ← takeName m behind
  if name = [] then some (1, none)
  else
    let (stop, ending) ← tagEnd m text (m.add 1 name.length)
    match ending with
    | .opened => some (m.add stop 1, some (.opened, name))
    | .selfClosed => some (m.add stop 1, some (.selfClosed, name))
    | .abandoned => some (stop, none)
    | .unterminated => some (-1, none)

def construct (text : Text) : Option (Int × Option (EventKind × Text)) :=
  if (utf8 "<!--").isPrefixOf text then do
    let size ← pastFirst m (utf8 "-->") 4 text
    some (size, if 0 < size then some (.comment, []) else none)
  else if (utf8 "<![CDATA[").isPrefixOf text then
    (pastFirst m (utf8 "]]>") 9 text).map (·, none)
  else if (utf8 "<?").isPrefixOf text then (pastFirst m (utf8 "?>") 2 text).map (·, none)
  else if (utf8 "<!").isPrefixOf text then (pastFirst m (utf8 ">") 2 text).map (·, none)
  else if (utf8 "</").isPrefixOf text then endTag m text
  else startTag m text

/-! ## The scan -/

/-- A scan where it stands: the index, that of the last time it asked for permission, and the events
so far, in reverse. -/
structure Walk where
  budget : Budget
  asked : Int
  offset : Int
  found : List Event

def checkAt (budget : Budget) (asked offset : Int) : Option (Budget × Int) :=
  if Markup.checkInterval ≤ m.sub offset asked then budget.check.map (·, offset)
  else some (budget, asked)

def walkStep (text : Text) (w : Walk) :
    Option (Next Walk (Except Interrupted (List Event))) :=
  if w.offset < text.length then
    match checkAt m w.budget w.asked w.offset with
    | none => some (.done (.error .canceled))
    | some (budget, asked) => do
      let b ← get? text w.offset
      if b ≠ Byte.less then some (.more ⟨budget, asked, m.add w.offset 1, w.found⟩)
      else
        let rest ← cut? text w.offset text.length
        let (size, event) ← construct m rest
        let next := m.add w.offset size
        let found := match event with
          | none => w.found
          | some (kind, name) => ⟨kind, name, w.offset.toNat, next.toNat⟩ :: w.found
        if size < 0 then some (.done (.ok found.reverse))
        else some (.more ⟨budget, asked, next, found⟩)
  else some (.done (.ok w.found.reverse))

def scan (budget : Budget) (text : Text) : Option (Except Interrupted (List Event)) :=
  match budget.check with
  | none => some (.error .canceled)
  | some budget => loop (walkStep m text) (text.length + 1) ⟨budget, 0, 0, []⟩

def parentElement (budget : Budget) (text : Text) :
    Option (Except Interrupted (Option Text)) := do
  let events ← scan m budget text
  some (events.map fun events => (events.foldl Markup.nest []).head?)

/-! ## What the machine finds -/

def reading : Piece → Int × Option (EventKind × Text)
  | .skipped size => (size, none)
  | .found kind name size => (size, some (kind, name))
  | .unterminated => (-1, none)

def reached (start : Nat) : TagEnd → Int × Ending
  | .closed selfClosing size =>
    ((start : Int) + size - 1, if selfClosing then .selfClosed else .opened)
  | .abandoned size => ((start : Int) + size, .abandoned)
  | .unterminated => (-1, .unterminated)

variable {text : Text} (hsize : text.length < 2 ^ 31)
include hsize

-- The search says -1 where the text has no terminator.
theorem pastFirst_eq {terminator : Text} (hne : terminator ≠ []) {skip : Nat}
    (hskip : skip ≤ text.length) :
    pastFirst m terminator skip text =
      some ((Markup.pastFirst terminator skip text).elim (-1) (fun size => (size : Int))) := by
  have hbounds (size : Nat) (h : Markup.pastFirst terminator skip text = some size) :=
    Markup.bounds_of_pastFirst h hne
  rw [pastFirst, cut?_tail hskip]
  unfold Markup.pastFirst at hbounds ⊢
  simp only [Option.bind_eq_bind, Option.bind_some]
  cases hfound : Text.indexOf terminator (text.drop skip) with
  | none => rfl
  | some found =>
    have hle : skip + terminator.length ≤ skip + found + terminator.length ∧
        skip + found + terminator.length ≤ text.length := hbounds _ (by rw [hfound]; rfl)
    have hfirst : m.add skip found = ((skip + found : Nat) : Int) := m.add_natCast (by omega)
    have hsecond : m.add (skip + found : Nat) terminator.length =
        ((skip + found + terminator.length : Nat) : Int) := m.add_natCast (by omega)
    simp only [hfirst, hsecond]
    rfl

def tagEndFrom (text : Text) (start : Nat) (s : Option UInt8 × Int) : Int × Ending :=
  reached start (Markup.tagEnd s.1 (text[s.2.toNat - 1]? == some Byte.slash) (s.2.toNat - start)
    (text.drop s.2.toNat))

-- A step ends the walk with the tag, or leaves the value of the rest as it was.
theorem tagEndStep_eq {start k : Nat} (quote : Option UInt8) (hpos : 0 < start) (hk : start ≤ k)
    (hinside : k < text.length) :
    tagEndStep m text (quote, k) = some (.done (tagEndFrom text start (quote, k))) ∨
      ∃ quote', tagEndStep m text (quote, k) = some (.more (quote', (k + 1 : Nat))) ∧
        tagEndFrom text start (quote', (k + 1 : Nat)) = tagEndFrom text start (quote, k) := by
  have hnext : m.add k 1 = ((k + 1 : Nat) : Int) := m.add_one (by omega)
  have hprev : m.sub k 1 = ((k - 1 : Nat) : Int) := m.sub_one (by omega) (by omega)
  have hseen : k - start + 1 = k + 1 - start := by omega
  have hlast : text[k - 1]? = some text[k - 1] := List.getElem?_eq_getElem (by omega)
  simp only [tagEndFrom, Int.toNat_natCast, Nat.add_sub_cancel, tagEndStep]
  rw [if_pos (by omega), List.drop_eq_getElem_cons hinside, hnext, hprev, get?_natCast,
    get?_natCast, List.getElem?_eq_getElem hinside, hlast]
  simp only [Option.bind_eq_bind, Option.bind_some]
  cases quote with
  | some q =>
    refine .inr ⟨_, rfl, ?_⟩
    rw [Markup.tagEnd, hseen]
    rfl
  | none =>
    rw [Markup.tagEnd]
    simp only [Bool.or_eq_true, decide_eq_true_eq]
    split_ifs with hquote hgreater hslash hless
    · have hother : (text[k] == Byte.slash) = false := by
        rcases hquote with hb | hb <;> rw [hb] <;> rfl
      refine .inr ⟨_, rfl, ?_⟩
      rw [hseen, ← hother]
      rfl
    · have hstop : (start : Int) + (k - start + 1 : Nat) - 1 = k := by omega
      left
      rw [reached, hstop, hslash]
      rfl
    · have hstop : (start : Int) + (k - start + 1 : Nat) - 1 = k := by omega
      left
      rw [reached, hstop, Option.some_beq_some, beq_eq_false_iff_ne.mpr hslash]
      rfl
    · have hstop : (start : Int) + (k - start : Nat) = k := by omega
      left
      rw [reached, hstop]
    · refine .inr ⟨_, rfl, ?_⟩
      rw [hseen]
      rfl

-- No name ends in a slash, so the slash of a tag that closes itself stands behind the name.
theorem tagEnd_eq {start : Nat} (hpos : 0 < start) (hstart : start ≤ text.length)
    (hslash : text[start - 1]? ≠ some Byte.slash) :
    tagEnd m text start =
      some (reached start (Markup.tagEnd none false 0 (text.drop start))) := by
  have hfrom : tagEndFrom text start (none, start) =
      reached start (Markup.tagEnd none false 0 (text.drop start)) := by
    simp only [tagEndFrom, Int.toNat_natCast, Nat.sub_self, beq_eq_false_iff_ne.mpr hslash]
  rw [← hfrom]
  refine loop_eq
    (fun s : Option UInt8 × Int => ∃ k : Nat, s.2 = k ∧ start ≤ k ∧ k ≤ text.length)
    (fun s => text.length - s.2.toNat) (tagEndFrom text start) ?_ ⟨start, rfl, le_rfl, hstart⟩
    (by simp only; omega)
  rintro ⟨quote, _⟩ ⟨k, rfl, hk, hend⟩
  by_cases hinside : k < text.length
  · refine (tagEndStep_eq m hsize quote hpos hk hinside).imp_right fun ⟨quote', hmore, hsame⟩ => ?_
    refine ⟨_, hmore, ⟨k + 1, rfl, by omega, hinside⟩, ?_, hsame⟩
    simp only
    omega
  · left
    simp only [tagEndStep, tagEndFrom, Int.toNat_natCast]
    rw [if_neg (by omega), List.drop_eq_nil_of_le (by omega)]
    rfl

theorem skipPast_eq {opener terminator : Text} (hne : terminator ≠ [])
    (hopener : opener.isPrefixOf text) :
    (pastFirst m terminator opener.length text).map (·, none) =
      some (reading (Markup.skipPast terminator opener.length text)) := by
  have hlen := (List.isPrefixOf_iff_prefix.mp hopener).length_le
  rw [pastFirst_eq m hsize hne hlen, Markup.skipPast]
  cases Markup.pastFirst terminator opener.length text <;> rfl

theorem endTag_eq (hopener : (utf8 "</").isPrefixOf text) :
    endTag m text = some (reading (Markup.endTag text)) := by
  have hlen : 2 ≤ text.length := (List.isPrefixOf_iff_prefix.mp hopener).length_le
  have hbounds (size : Nat) (h : Markup.pastFirst (utf8 ">") 0 text = some size) :=
    (Markup.bounds_of_pastFirst h (by decide)).2
  rw [endTag, Markup.endTag]
  unfold Markup.pastFirst at hbounds ⊢
  rw [List.drop_zero] at hbounds ⊢
  cases hend : Text.indexOf (utf8 ">") text with
  | none => rfl
  | some found =>
    have hle : 0 + found + 1 ≤ text.length := hbounds _ (by rw [hend]; rfl)
    have hcut : cut? text 2 text.length = some (text.drop 2) := cut?_tail hlen
    have hnext : m.add found 1 = ((0 + found + 1 : Nat) : Int) := by
      rw [Nat.zero_add]
      exact m.add_one (by omega)
    have hname := takeName_eq m
      (show (text.drop 2).length < 2 ^ 31 by rw [List.length_drop]; omega)
    simp only [hcut, hname, hnext, Option.bind_eq_bind, Option.bind_some]
    rfl

theorem startTag_eq {rest : Text} (htext : text = Byte.less :: rest) :
    startTag m text = some (reading (Markup.startTag rest)) := by
  subst htext
  rw [List.length_cons] at hsize
  have hcut : cut? (Byte.less :: rest) (1 : Nat) (Byte.less :: rest).length = some rest :=
    cut?_split (List.append_cons [] Byte.less rest) rfl
  rw [Int.natCast_one] at hcut
  have hprefix := Markup.isPrefix_takeName rest
  rw [startTag, hcut, Markup.startTag]
  simp only [Option.bind_eq_bind, Option.bind_some]
  rw [takeName_eq m (by omega), Option.bind_some]
  split_ifs with hname
  · rfl
  have hpos := List.length_pos_iff.mpr hname
  have hle := hprefix.length_le
  have hstart : m.add 1 (Markup.takeName rest).length =
      ((1 + (Markup.takeName rest).length : Nat) : Int) := m.add_natCast (a := 1) (by omega)
  -- The byte in front of the end of the tag is one of the name.
  have hslash : (Byte.less :: rest)[1 + (Markup.takeName rest).length - 1]? ≠ some Byte.slash := by
    obtain ⟨tail, htail⟩ := hprefix
    obtain ⟨n, hn⟩ := Nat.exists_eq_add_of_le' hpos
    rw [Nat.add_sub_cancel_left, hn, List.getElem?_cons_succ, ← htail,
      List.getElem?_append_left (by omega)]
    intro hmem
    exact absurd (Markup.isNameByte_of_mem_takeName (List.mem_of_getElem? hmem)) (by decide)
  have hend := tagEnd_eq m (show (Byte.less :: rest).length < 2 ^ 31 from hsize)
    (show 0 < 1 + (Markup.takeName rest).length by omega) (by rw [List.length_cons]; omega) hslash
  have hbehind : (Byte.less :: rest).drop (1 + (Markup.takeName rest).length) =
      rest.drop (Markup.takeName rest).length := by rw [Nat.add_comm, List.drop_succ_cons]
  rw [hstart, hend, hbehind, Option.bind_some]
  cases hfound : Markup.tagEnd none false 0 (rest.drop (Markup.takeName rest).length) with
  | closed selfClosing size =>
    have hbounds := Markup.bounds_of_tagEnd_closed hfound
    rw [List.length_drop] at hbounds
    have hnext : m.add ((1 + (Markup.takeName rest).length : Nat) + size - 1) 1 =
        ((1 + (Markup.takeName rest).length + size : Nat) : Int) := by
      rw [m.add_eq (by unfold IsWord; omega)]
      omega
    simp only [reached, hnext]
    cases selfClosing <;> rfl
  | abandoned size => rfl
  | unterminated => rfl

theorem construct_eq {rest : Text} (htext : text = Byte.less :: rest) :
    construct m text = some (reading (Markup.construct text)) := by
  rw [construct, Markup.construct]
  split_ifs with hcomment hdata hinstruction hdeclaration hend
  · have hlen : 4 ≤ text.length := (List.isPrefixOf_iff_prefix.mp hcomment).length_le
    have hpast : pastFirst m (utf8 "-->") 4 text = _ := pastFirst_eq m hsize (by decide) hlen
    rw [hpast]
    cases hend : Markup.pastFirst (utf8 "-->") 4 text with
    | none => rfl
    | some size =>
      have hpos : 4 + 3 ≤ size := (Markup.bounds_of_pastFirst hend (by decide)).1
      simp only [Option.bind_eq_bind, Option.bind_some, Option.elim_some]
      rw [if_pos (by omega)]
      rfl
  · exact skipPast_eq m hsize (by decide) hdata
  · exact skipPast_eq m hsize (by decide) hinstruction
  · exact skipPast_eq m hsize (by decide) hdeclaration
  · exact endTag_eq m hsize hend
  · rw [startTag_eq m hsize htext]
    subst htext
    have hdrop (n : Nat) : (Byte.less :: rest).drop (1 + n) = rest.drop n := by
      rw [Nat.add_comm, List.drop_succ_cons]
    simp only [hdrop]
    rfl

omit hsize in
theorem checkAt_eq (budget : Budget) {asked offset : Nat} (hasked : asked ≤ offset)
    (hoffset : offset < 2 ^ 31) :
    checkAt m budget asked offset =
      (budget.checkAt asked offset).map fun granted => (granted.1, (granted.2 : Int)) := by
  have hback : m.sub offset asked = ((offset - asked : Nat) : Int) :=
    m.sub_natCast hasked (by omega)
  rw [checkAt, hback, Budget.checkAt]
  by_cases hfar : Markup.checkInterval ≤ offset - asked
  · rw [if_pos (by omega), if_pos hfar, Option.map_map]
    rfl
  · rw [if_neg (by omega), if_neg hfar]
    rfl

-- The mark of the last check goes no further than to here.
omit hsize in
theorem le_of_checkAt {budget granted : Budget} {asked asked' offset : Nat}
    (h : budget.checkAt asked offset = some (granted, asked')) (hasked : asked ≤ offset) :
    asked' ≤ offset := by
  unfold Budget.checkAt at h
  split_ifs at h
  · obtain ⟨b, -, hb⟩ := Option.map_eq_some_iff.mp h
    exact (Prod.mk.inj hb).2 ▸ le_rfl
  · exact (Prod.mk.inj (Option.some.inj h)).2 ▸ hasked

def stepAt (budget : Budget) (asked k : Nat) (found : List Event) (b : UInt8) (rest : Text) :
    Next Walk (Except Interrupted (List Event)) :=
  match budget.checkAt asked k with
  | none => .done (.error .canceled)
  | some (granted, asked) =>
    match Markup.piece b rest with
    | .skipped size => .more ⟨granted, asked, (k + size : Nat), found⟩
    | .found kind name size =>
      .more ⟨granted, asked, (k + size : Nat), ⟨kind, name, k, k + size⟩ :: found⟩
    | .unterminated => .done (.ok found.reverse)

-- One step of the loop is one step of the recursion.
theorem walkStep_eq (budget : Budget) {asked k : Nat} (found : List Event) {b : UInt8} {rest : Text}
    (hasked : asked ≤ k) (hdrop : text.drop k = b :: rest) :
    walkStep m text ⟨budget, asked, k, found⟩ = some (stepAt budget asked k found b rest) := by
  have hlen := congrArg List.length hdrop
  rw [List.length_drop, List.length_cons] at hlen
  have hget : get? text k = some b := by
    rw [get?_natCast, ← List.head?_drop, hdrop, List.head?_cons]
  have hcut : cut? text k text.length = some (b :: rest) := by rw [cut?_tail (by omega), hdrop]
  have hnext {size : Nat} (hle : size ≤ rest.length + 1) :
      m.add k size = ((k + size : Nat) : Int) := m.add_natCast (by omega)
  rw [walkStep, if_pos (by simp only; omega), checkAt_eq m budget hasked (by omega), stepAt]
  cases budget.checkAt asked k with
  | none => rfl
  | some granted =>
    simp only [Option.map_some, Option.bind_eq_bind, Option.bind_some, hget, hcut, Markup.piece]
    by_cases hless : b = Byte.less
    · have hfits : (Markup.construct (b :: rest)).Fits (rest.length + 1) := by
        rw [hless]
        exact Markup.construct_fits rest
      rw [if_neg (not_not.mpr hless), if_pos hless,
        construct_eq m (show (b :: rest).length < 2 ^ 31 by rw [List.length_cons]; omega)
          (by rw [hless])]
      cases hpiece : Markup.construct (b :: rest) with
      | skipped size =>
        have hle := hfits.le size (by rw [hpiece]; rfl)
        simp only [reading, Option.bind_some, hnext hle]
        rw [if_neg (by omega)]
      | found kind name size =>
        have hle := hfits.le size (by rw [hpiece]; rfl)
        simp only [reading, Option.bind_some, hnext hle, Int.toNat_natCast]
        rw [if_neg (by omega)]
      | unterminated => rfl
    · rw [if_pos hless, if_neg hless, m.add_one (show k + 1 < 2 ^ 63 by omega)]

structure Walk.Inside (text : Text) (w : Walk) : Prop where
  asked_nonneg : 0 ≤ w.asked
  asked_le : w.asked ≤ w.offset
  offset_le : w.offset ≤ text.length

def Walk.outcome (text : Text) (w : Walk) : Except Interrupted (List Event) :=
  Markup.scanFrom w.budget w.asked.toNat w.offset.toNat w.found (text.drop w.offset.toNat)

/-- Every step keeps what the scan comes to, and brings it nearer to the end of the text. -/
theorem Walk.Inside.step {w : Walk} (h : w.Inside text) :
    walkStep m text w = some (.done (w.outcome text)) ∨
      ∃ w' : Walk, walkStep m text w = some (.more w') ∧ w'.Inside text ∧
        text.length - w'.offset.toNat < text.length - w.offset.toNat ∧
        w'.outcome text = w.outcome text := by
  obtain ⟨budget, asked, k, found⟩ := w
  obtain ⟨hnonneg, hasked, hend⟩ := h
  simp only at hnonneg hasked hend
  obtain ⟨asked, rfl⟩ := Int.eq_ofNat_of_zero_le hnonneg
  obtain ⟨k, rfl⟩ := Int.eq_ofNat_of_zero_le (hnonneg.trans hasked)
  cases hdrop : text.drop k with
  | nil =>
    have hle := List.drop_eq_nil_iff.mp hdrop
    rw [walkStep, if_neg (by simp only; omega), Walk.outcome]
    left
    simp only [Int.toNat_natCast, hdrop, Markup.scanFrom]
  | cons b rest =>
    have hlen := congrArg List.length hdrop
    rw [List.length_drop, List.length_cons] at hlen
    have hfits := Markup.piece_fits b rest
    have hbehind {size : Nat} (hpos : 0 < size) : text.drop (k + size) = rest.drop (size - 1) := by
      obtain ⟨n, rfl⟩ := Nat.exists_eq_add_of_le' hpos
      rw [← List.drop_drop, hdrop, List.drop_succ_cons, Nat.add_sub_cancel]
    rw [walkStep_eq m hsize budget found (by omega) hdrop, stepAt]
    simp only [Walk.outcome, Int.toNat_natCast, hdrop, Markup.scanFrom]
    cases hcheck : budget.checkAt asked k with
    | none => exact .inl rfl
    | some granted =>
      obtain ⟨granted, asked'⟩ := granted
      have hasked' := le_of_checkAt hcheck (by omega)
      have hinside {size : Nat} (hle : size ≤ rest.length + 1) (found' : List Event) :
          Walk.Inside text ⟨granted, asked', (k + size : Nat), found'⟩ := by
        constructor <;> simp only <;> omega
      cases hpiece : Markup.piece b rest with
      | skipped size =>
        have hpos := hfits.pos size (by rw [hpiece]; rfl)
        have hle := hfits.le size (by rw [hpiece]; rfl)
        refine .inr ⟨_, rfl, hinside hle found, by simp only [Int.toNat_natCast]; omega, ?_⟩
        simp only [Int.toNat_natCast, hbehind hpos]
      | found kind name size =>
        have hpos := hfits.pos size (by rw [hpiece]; rfl)
        have hle := hfits.le size (by rw [hpiece]; rfl)
        refine .inr ⟨_, rfl, hinside hle _, by simp only [Int.toNat_natCast]; omega, ?_⟩
        simp only [Int.toNat_natCast, hbehind hpos]
      | unterminated => exact .inl rfl

-- The invariant is that the walk stands in the text; each step makes the rest shorter.
theorem scan_eq (budget : Budget) : scan m budget text = some (Markup.scan budget text) := by
  rw [scan, Markup.scan]
  cases budget.check with
  | none => rfl
  | some budget =>
    exact loop_eq (Walk.Inside text) (fun w => text.length - w.offset.toNat) (Walk.outcome text)
      (fun w h => h.step m hsize) ⟨le_rfl, le_rfl, Int.natCast_nonneg _⟩
      (by simp only; omega)

theorem parentElement_eq (budget : Budget) :
    parentElement m budget text = some (Markup.parentElement budget text) := by
  rw [parentElement, scan_eq m hsize]
  rfl

end SvgAssist.Machine
