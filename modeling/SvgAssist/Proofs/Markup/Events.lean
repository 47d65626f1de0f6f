import SvgAssist.Proofs.Markup.Piece

/-!
# The events of a text

A scan that is never refused reports the events that `eventsFrom` lists (`scan_unlimited`). They
stand in order and do not overlap, and a cut keeps exactly those that end in front of it
(`eventsFrom_take`), so that a scan is stable when the text is cut off (`scan_take`).
-/

namespace SvgAssist.Markup

def eventsFrom (offset : Nat) : Text → List Event
  | [] => []
  | b :: rest =>
    match piece b rest with
    | .unterminated => []
    | .skipped size => eventsFrom (offset + size) (rest.drop (size - 1))
    | .found kind name size =>
      ⟨kind, name, offset, offset + size⟩ :: eventsFrom (offset + size) (rest.drop (size - 1))
termination_by text => text.length
decreasing_by all_goals simp only [List.length_drop, List.length_cons]; omega

-- Without a limit every check is granted.
theorem checkAt_unlimited (asked offset : Nat) :
    ∃ asked', Budget.unlimited.checkAt asked offset = some (.unlimited, asked') := by
  unfold Budget.checkAt
  split
  · exact ⟨offset, rfl⟩
  · exact ⟨asked, rfl⟩

-- So the scan is the recursion on its pieces.
theorem scanFrom_unlimited (asked offset : Nat) (found : List Event) (text : Text) :
    scanFrom .unlimited asked offset found text =
      .ok (found.reverse ++ eventsFrom offset text) := by
  -- The offset at which permission was last asked for plays no part, so it is left general.
  fun_induction eventsFrom offset text generalizing asked found with
  | case1 offset => simp [scanFrom]
  | case2 offset b rest hpiece =>
    obtain ⟨asked', hasked⟩ := checkAt_unlimited asked offset
    simp [scanFrom, hasked, hpiece]
  | case3 offset b rest size hpiece ih =>
    obtain ⟨asked', hasked⟩ := checkAt_unlimited asked offset
    simp only [scanFrom, hasked, hpiece]
    exact ih asked' found
  | case4 offset b rest kind name size hpiece ih =>
    obtain ⟨asked', hasked⟩ := checkAt_unlimited asked offset
    simp only [scanFrom, hasked, hpiece]
    rw [ih]
    simp

theorem scan_unlimited (text : Text) : scan .unlimited text = .ok (eventsFrom 0 text) :=
  scanFrom_unlimited 0 0 [] text

/-! ## Order -/

-- An event covers its brackets and its name, all of them in the text.
theorem bounds_of_mem_eventsFrom {offset : Nat} {text : Text} {e : Event}
    (h : e ∈ eventsFrom offset text) :
    offset ≤ e.start ∧ e.start + e.name.length + 2 ≤ e.stop ∧ e.stop ≤ offset + text.length := by
  fun_induction eventsFrom offset text with
  | case1 offset => simp at h
  | case2 offset b rest hpiece => simp at h
  | case3 offset b rest size hpiece ih =>
    have hfits := hpiece ▸ piece_fits b rest
    have hpos := hfits.pos size rfl
    have hle := hfits.le size rfl
    have hrec := ih h
    simp only [List.length_drop, List.length_cons] at hrec ⊢
    omega
  | case4 offset b rest kind name size hpiece ih =>
    have hfits := hpiece ▸ piece_fits b rest
    have hpos := hfits.pos size rfl
    have hle := hfits.le size rfl
    have hname := hfits.name kind name size rfl
    rw [List.length_cons]
    rcases List.mem_cons.mp h with rfl | h
    · simp only
      omega
    · have hrec := ih h
      rw [List.length_drop] at hrec
      omega

-- Events do not overlap and come in order.
theorem pairwise_eventsFrom (offset : Nat) (text : Text) :
    (eventsFrom offset text).Pairwise (fun a b => a.stop ≤ b.start) := by
  fun_induction eventsFrom offset text with
  | case1 offset => exact .nil
  | case2 offset b rest hpiece => exact .nil
  | case3 offset b rest size hpiece ih => exact ih
  | case4 offset b rest kind name size hpiece ih =>
    exact .cons (fun e he => (bounds_of_mem_eventsFrom he).1) ih

-- What stands behind a piece, counted from where the piece begins.
theorem exists_drop_behind {offset start size : Nat} {b : UInt8} {tail : Text}
    {p : Text → Prop} (hpos : 0 < size)
    (h : ∃ i rest, start = offset + size + i ∧ (tail.drop (size - 1)).drop i = rest ∧ p rest) :
    ∃ i rest, start = offset + i ∧ (b :: tail).drop i = rest ∧ p rest := by
  obtain ⟨i, rest, hstart, hdrop, hp⟩ := h
  obtain ⟨n, rfl⟩ : ∃ n, size = n + 1 := ⟨size - 1, by omega⟩
  rw [List.drop_drop, Nat.add_sub_cancel] at hdrop
  refine ⟨n + i + 1, rest, by omega, ?_, hp⟩
  rwa [List.drop_succ_cons]

/-- An event is found at a `<`, where it begins. -/
theorem found_of_mem_eventsFrom {offset : Nat} {text : Text} {e : Event}
    (h : e ∈ eventsFrom offset text) :
    ∃ i rest, e.start = offset + i ∧ text.drop i = rest ∧
      ∃ tail size, rest = Byte.less :: tail ∧ e.stop = e.start + size ∧
        construct (Byte.less :: tail) = .found e.kind e.name size := by
  fun_induction eventsFrom offset text with
  | case1 offset => simp at h
  | case2 offset b rest hpiece => simp at h
  | case3 offset b rest size hpiece ih =>
    have hpos := (hpiece ▸ piece_fits b rest).pos size rfl
    exact exists_drop_behind hpos (ih h)
  | case4 offset b rest kind name size hpiece ih =>
    have hpos := (hpiece ▸ piece_fits b rest).pos size rfl
    rcases List.mem_cons.mp h with rfl | h
    · unfold piece at hpiece
      split at hpiece
      · rename_i hb
        subst hb
        exact ⟨0, _, rfl, rfl, rest, size, rfl, rfl, hpiece⟩
      · simp at hpiece
    · exact exists_drop_behind hpos (ih h)

-- A start tag stands where its event says, with its name behind the `<`.
theorem name_of_mem_eventsFrom {offset : Nat} {text : Text} {e : Event}
    (h : e ∈ eventsFrom offset text) (hkind : e.kind = .opened ∨ e.kind = .selfClosed) :
    ∃ i rest, e.start = offset + i ∧ text.drop i = rest ∧
      ∃ tail, rest = Byte.less :: tail ∧ takeName tail = e.name ∧ e.name ≠ [] := by
  obtain ⟨i, rest, hstart, hdrop, tail, size, htail, -, hconstruct⟩ := found_of_mem_eventsFrom h
  refine ⟨i, rest, hstart, hdrop, tail, htail, ?_⟩
  obtain ⟨kind, name, start, stop⟩ := e
  cases found_of_construct hconstruct with
  | comment => simp at hkind
  | endTag => simp at hkind
  | startTag hname => exact ⟨rfl, hname⟩

/-! ## Cutting a text off -/

-- No event ends before the text that it is in begins.
theorem filter_eventsFrom_eq_nil {offset limit : Nat} {text : Text} (h : limit ≤ offset) :
    (eventsFrom offset text).filter (fun e => e.stop ≤ limit) = [] := by
  rw [List.filter_eq_nil_iff]
  intro e he
  have := bounds_of_mem_eventsFrom he
  rw [decide_eq_true_eq]
  omega

theorem eventsFrom_of_unterminated {b : UInt8} {rest : Text} (h : piece b rest = .unterminated)
    (offset : Nat) : eventsFrom offset (b :: rest) = [] := by
  rw [eventsFrom, h]

-- A piece in a text that is cut off: it is found as before, or the cut goes through it and nothing
-- is found from there on.
theorem piece_take (b : UInt8) (rest : Text) (c : Nat) :
    (piece b (rest.take c) = piece b rest ∧
      ∀ size, (piece b rest).size? = some size → size ≤ c + 1) ∨
    ((∀ offset, eventsFrom offset (b :: rest.take c) = []) ∧
      (∀ size, (piece b rest).size? = some size → c + 1 ≤ size) ∧
      ∀ kind name, piece b rest ≠ .found kind name (c + 1)) := by
  -- An unterminated piece reports nothing, so it is enough to follow what becomes of the piece.
  have hofCut (hcut : (piece b rest).Cut (c + 1) (piece b (rest.take c))) :=
    hcut.stays_or_breaks.imp_right (And.imp_left eventsFrom_of_unterminated)
  by_cases hless : b = Byte.less
  · subst hless
    cases rest with
    | nil =>
      rw [List.take_nil] at hofCut ⊢
      exact hofCut (.inl (skipped_upTo (Nat.le_add_left 1 c)).symm)
    | cons second more =>
      cases c with
      | succ c => exact hofCut (construct_take second more c)
      | zero =>
        -- Only the `<` is left, which is stepped over, whatever it began.
        right
        have hfits := piece_fits Byte.less (second :: more)
        refine ⟨fun offset => ?_, hfits.pos, fun kind name h => ?_⟩
        · rw [List.take_zero, eventsFrom]
          exact eventsFrom.eq_1 _
        · have := hfits.name kind name 1 h
          omega
  · have hskip (text : Text) : piece b text = .skipped 1 := if_neg hless
    rw [hskip, hskip] at hofCut
    rw [hskip, hskip]
    exact hofCut (.inl (skipped_upTo (Nat.le_add_left 1 c)).symm)

/-- A cut keeps the events that end in front of it. -/
theorem eventsFrom_take (offset : Nat) (text : Text) (c : Nat) :
    eventsFrom offset (text.take c) =
      (eventsFrom offset text).filter (fun e => e.stop ≤ offset + c) := by
  -- Along the scan of the whole text: as long as pieces end in front of the cut, both scans find
  -- the same; the first that does not is the last of the cut text, and reports nothing.
  fun_induction eventsFrom offset text generalizing c with
  | case1 offset => simp [eventsFrom]
  | case2 offset b rest hpiece =>
    cases c with
    | zero => rw [List.take_zero, eventsFrom, List.filter_nil]
    | succ c =>
      rcases piece_take b rest c with ⟨hsame, -⟩ | ⟨hnil, -⟩
      · exact eventsFrom_of_unterminated (hsame.trans hpiece) offset
      · exact hnil offset
  | case3 offset b rest size hpiece ih =>
    have hpos := (piece_fits b rest).pos size (by rw [hpiece]; rfl)
    cases c with
    | zero =>
      rw [List.take_zero, eventsFrom, filter_eventsFrom_eq_nil (by omega)]
    | succ c =>
      rcases piece_take b rest c with ⟨hsame, hle⟩ | ⟨hnil, hge, -⟩
      · have hle := hle size (by rw [hpiece]; rfl)
        rw [List.take_succ_cons, eventsFrom, hsame, hpiece]
        simp only
        rw [List.drop_take, ih]
        have hlimit : offset + size + (c - (size - 1)) = offset + (c + 1) := by omega
        rw [hlimit]
      · have hge := hge size (by rw [hpiece]; rfl)
        rw [List.take_succ_cons, hnil, filter_eventsFrom_eq_nil (by omega)]
  | case4 offset b rest kind name size hpiece ih =>
    have hpos := (piece_fits b rest).pos size (by rw [hpiece]; rfl)
    cases c with
    | zero =>
      rw [List.take_zero, eventsFrom,
        List.filter_cons_of_neg (by simp only [decide_eq_true_eq]; omega),
        filter_eventsFrom_eq_nil (by omega)]
    | succ c =>
      rcases piece_take b rest c with ⟨hsame, hle⟩ | ⟨hnil, hge, hne⟩
      · have hle := hle size (by rw [hpiece]; rfl)
        rw [List.take_succ_cons, eventsFrom, hsame, hpiece,
          List.filter_cons_of_pos (by simp only [decide_eq_true_eq]; omega)]
        simp only
        rw [List.drop_take, ih]
        have hlimit : offset + size + (c - (size - 1)) = offset + (c + 1) := by omega
        rw [hlimit]
      · have hge := hge size (by rw [hpiece]; rfl)
        have hne : size ≠ c + 1 := fun h => hne kind name (h ▸ hpiece)
        rw [List.take_succ_cons, hnil,
          List.filter_cons_of_neg (by simp only [decide_eq_true_eq]; omega),
          filter_eventsFrom_eq_nil (by omega)]

/-- A text that is cut off is scanned to the events that end in front of the cut, as the whole text
has them. -/
theorem scan_take (text : Text) (c : Nat) :
    ∃ events, scan .unlimited text = .ok events ∧
      scan .unlimited (text.take c) = .ok (events.filter fun e => e.stop ≤ c) := by
  refine ⟨eventsFrom 0 text, scan_unlimited text, ?_⟩
  rw [scan_unlimited, eventsFrom_take, Nat.zero_add]

end SvgAssist.Markup
