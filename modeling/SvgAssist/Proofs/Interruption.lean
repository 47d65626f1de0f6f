import SvgAssist.Completion.Complete
import SvgAssist.Proofs.Markup.Nesting

/-!
# Interruption

A scan under a budget asks for permission a number of times that depends on the text alone
(`checksFrom`): once, and once again for every 4096 bytes at the most (`checksFrom_le`). It gives up
when the budget has fewer, and reports what it reports without a budget otherwise (`scan_checks`).
What is made of its events is therefore missing or complete, and never a part
(`interrupted_or_complete`).
-/

namespace SvgAssist.Markup

/-! ## Counting the checks -/

def dueAt (asked offset : Nat) : Nat := if checkInterval ≤ offset - asked then 1 else 0

def askedAt (asked offset : Nat) : Nat := if checkInterval ≤ offset - asked then offset else asked

def checksFrom (asked offset : Nat) : Text → Nat
  | [] => 0
  | b :: rest =>
    dueAt asked offset +
      match (piece b rest).size? with
      | none => 0
      | some size => checksFrom (askedAt asked offset) (offset + size) (rest.drop (size - 1))
termination_by text => text.length
decreasing_by simp only [List.length_drop, List.length_cons]; omega

-- A check is granted just when it is not due or one is left.
theorem checkAt_checks (left asked offset : Nat) :
    (Budget.checks left).checkAt asked offset =
      if dueAt asked offset ≤ left then
        some (.checks (left - dueAt asked offset), askedAt asked offset)
      else none := by
  unfold Budget.checkAt dueAt askedAt
  by_cases h : checkInterval ≤ offset - asked
  · cases left with
    | zero => simp [h, Budget.check]
    | succ n => simp [h, Budget.check]
  · simp [h]

-- A scan with a number of checks left either sees all events or is canceled.
theorem scanFrom_checks (left asked offset : Nat) (found : List Event) (text : Text) :
    scanFrom (.checks left) asked offset found text =
      if checksFrom asked offset text ≤ left then .ok (found.reverse ++ eventsFrom offset text)
      else .error .canceled := by
  -- The check that is due at a piece is taken from the budget, and what is left of it is for the
  -- pieces behind.
  fun_induction eventsFrom offset text generalizing left asked found with
  | case1 offset => simp [scanFrom, checksFrom]
  | case2 offset b rest hpiece =>
    rw [scanFrom, checkAt_checks, checksFrom, hpiece]
    by_cases hdue : dueAt asked offset ≤ left <;> simp [hdue, Piece.size?]
  | case3 offset b rest size hpiece ih =>
    rw [scanFrom, checkAt_checks, checksFrom, hpiece]
    by_cases hdue : dueAt asked offset ≤ left
    · simp only [hdue, if_true, Piece.size?, ih]
      exact if_congr (Nat.le_sub_iff_add_le' hdue) rfl rfl
    · simp only [hdue, if_false]
      rw [if_neg (by omega)]
  | case4 offset b rest kind name size hpiece ih =>
    rw [scanFrom, checkAt_checks, checksFrom, hpiece]
    by_cases hdue : dueAt asked offset ≤ left
    · simp only [hdue, if_true, Piece.size?, ih, List.reverse_cons, List.append_assoc,
        List.singleton_append]
      exact if_congr (Nat.le_sub_iff_add_le' hdue) rfl rfl
    · simp only [hdue, if_false]
      rw [if_neg (by omega)]

-- The bytes since the last check, up to the last byte of the text, are enough for all checks to
-- come.
theorem checksFrom_le {asked offset : Nat} (h : asked ≤ offset) (text : Text) :
    checksFrom asked offset text ≤ (offset + text.length - 1 - asked) / checkInterval := by
  have hinterval : 0 < checkInterval := by decide
  -- One check at a piece that covers `size` bytes, and those for the bytes behind it.
  have hpiece {asked offset length later : Nat} (size : Nat) (h : asked ≤ offset)
      (hpos : 0 < size) (hsize : size ≤ length)
      (hlater : askedAt asked offset ≤ offset + size →
        later ≤ (offset + size + (length - size) - 1 - askedAt asked offset) / checkInterval) :
      dueAt asked offset + later ≤ (offset + length - 1 - asked) / checkInterval := by
    unfold dueAt askedAt at *
    split_ifs at * with hdue
    · rw [Nat.le_div_iff_mul_le hinterval, Nat.add_mul]
      have := (Nat.le_div_iff_mul_le hinterval).mp (hlater (by omega))
      omega
    · rw [Nat.zero_add]
      refine (hlater (by omega)).trans (Nat.div_le_div_right (by omega))
  induction hlen : text.length using Nat.strong_induction_on generalizing asked offset text with
  | h n ih =>
    subst hlen
    cases text with
    | nil => rw [checksFrom]; exact Nat.zero_le _
    | cons b rest =>
      rw [checksFrom]
      cases hsize : (piece b rest).size? with
      | none =>
        exact hpiece 1 h Nat.one_pos (Nat.le_add_left 1 rest.length) fun _ => Nat.zero_le _
      | some size =>
        have hpos := (piece_fits b rest).pos size hsize
        have hbehind : (rest.drop (size - 1)).length = (b :: rest).length - size := by
          rw [List.length_drop, List.length_cons]
          omega
        refine hpiece size h hpos ((piece_fits b rest).le size hsize) fun hasked => ?_
        exact hbehind ▸ ih _ (by rw [hbehind, List.length_cons]; omega) hasked _ rfl

/-- A scan gives up when its budget has fewer checks than it needs, the first one included. -/
theorem scan_checks (n : Nat) (text : Text) :
    scan (.checks n) text =
      if 1 + checksFrom 0 0 text ≤ n then scan .unlimited text else .error .canceled := by
  rw [scan_unlimited]
  cases n with
  | zero => rw [if_neg (by omega)]; rfl
  | succ n =>
    refine (scanFrom_checks n 0 0 [] text).trans ?_
    simp only [Nat.add_comm 1, Nat.add_le_add_iff_right, List.reverse_nil, List.nil_append]

/-! ## Results of a scan -/

/-- What a run under a budget may come to: no answer, or the one without a budget. An answer stays
with a larger budget, and there is one when the budget has the first check and one for every 4096
bytes of the text. -/
structure Interruptible {α : Type} (text : Text) (run : Budget → Except Interrupted α) : Prop where
  none_or_whole : ∃ answer, run .unlimited = .ok answer ∧
    ∀ n, run (.checks n) = .error .canceled ∨ run (.checks n) = .ok answer
  stays : ∀ {n m answer}, n ≤ m → run (.checks n) = .ok answer → run (.checks m) = .ok answer
  comes : ∀ {n : Nat}, 1 ≤ n → 1 + ((text.length : Int) - 1) / 4096 ≤ n →
    run (.checks n) = run .unlimited

/-- What is made of the events of a scan is interrupted with the scan. -/
theorem interruptible_scan {α : Type} (text : Text) (f : List Event → α) :
    Interruptible text fun budget => (scan budget text).map f := by
  have hrun (n : Nat) : (scan (.checks n) text).map f =
      if 1 + checksFrom 0 0 text ≤ n then .ok (f (eventsFrom 0 text)) else .error .canceled := by
    rw [scan_checks, scan_unlimited]
    split <;> rfl
  have hunlimited : (scan .unlimited text).map f = .ok (f (eventsFrom 0 text)) := by
    rw [scan_unlimited]
    rfl
  refine ⟨⟨f (eventsFrom 0 text), hunlimited, fun n => ?_⟩, ?_, ?_⟩
  · simp only [hrun]
    split
    · exact .inr rfl
    · exact .inl rfl
  · intro n m answer hle h
    simp only [hrun] at h ⊢
    split at h
    · rw [if_pos (by omega)]
      exact h
    · simp at h
  · intro n hone hn
    have hchecks := checksFrom_le (Nat.le_refl 0) text
    simp only [checkInterval, Nat.zero_add, Nat.sub_zero] at hchecks
    simp only [hrun, hunlimited]
    exact if_pos (by omega)

end SvgAssist.Markup

namespace SvgAssist

open Markup Completion

theorem length_before_le (text : Text) (pos : Position) :
    (Text.before text pos).length ≤ text.length := by
  unfold Text.before Text.slice
  rw [List.length_take, List.length_drop]
  omega

/-- The parent at the end of a text and the outline of a text come whole or not at all under a
budget, and so do the candidates at a position of a text. -/
theorem interrupted_or_complete (catalog : Grammar.Catalog) (text : Text) (pos : Position) :
    Interruptible text (parentElement · text) ∧ Interruptible text (Outline.parse · text) ∧
      (∀ n, complete catalog (.checks n) text pos = [] ∨
        complete catalog (.checks n) text pos = complete catalog .unlimited text pos) ∧
      ∀ n : Nat, 1 ≤ n → 1 + ((text.length : Int) - 1) / 4096 ≤ n →
        complete catalog (.checks n) text pos = complete catalog .unlimited text pos := by
  have hparent :=
    interruptible_scan (Text.before text pos) fun events => (events.foldl nest []).head?
  -- Only the candidates behind a `<` need a scan, that of the text in front of the cursor.
  have htags {n : Nat} (h : parentElement (.checks n) (Text.before text pos) =
      parentElement .unlimited (Text.before text pos)) :
      complete catalog (.checks n) text pos = complete catalog .unlimited text pos := by
    simp only [complete, tagCandidates, h]
  refine ⟨interruptible_scan _ _, interruptible_scan _ _, fun n => ?_, fun n hone hn => ?_⟩
  · obtain ⟨answer, hunlimited, hchecks⟩ := hparent.none_or_whole
    rcases hchecks n with hcanceled | hwhole
    · have hscan : parentElement (.checks n) (Text.before text pos) = .error .canceled := hcanceled
      simp only [complete, tagCandidates, hscan]
      split
      · split
        · exact .inr rfl
        · exact .inl rfl
      all_goals exact .inr rfl
    · exact .inr (htags (hwhole.trans hunlimited.symm))
  · have hlen := length_before_le text pos
    exact htags (hparent.comes hone (by omega))

end SvgAssist
