import SvgAssist.Proofs.Markup.Edges
import SvgAssist.Proofs.Markup.Quotes
import SvgAssist.Proofs.Markup.StartTag
import Mathlib

/-!
# Where a scan stops

A scan stops at the construct that is left unterminated (`stopFrom`), and reports what it does of
the text in front (`eventsFrom_take_stop`). When it is a start tag without angle brackets, it is the
one that is found by looking backwards from the end of the text (`tag_scans_agree`).
-/

namespace SvgAssist.Markup

/-- The offset at which the scan of a text that begins at `offset` stops, if it does not come to the
end. -/
def stopFrom (offset : Nat) : Text → Option Nat
  | [] => none
  | b :: rest =>
    match piece b rest with
    | .unterminated => some offset
    | .skipped size => stopFrom (offset + size) (rest.drop (size - 1))
    | .found _ _ size => stopFrom (offset + size) (rest.drop (size - 1))
termination_by text => text.length
decreasing_by all_goals simp only [List.length_drop, List.length_cons]; omega

theorem stopFrom_of_unterminated {b : UInt8} {rest : Text} (h : piece b rest = .unterminated)
    (offset : Nat) : stopFrom offset (b :: rest) = some offset := by
  rw [stopFrom, h]

theorem stopFrom_of_size {b : UInt8} {rest : Text} {size : Nat}
    (h : (piece b rest).size? = some size) (offset : Nat) :
    stopFrom offset (b :: rest) = stopFrom (offset + size) (rest.drop (size - 1)) := by
  rw [stopFrom]
  cases hshape : piece b rest with
  | unterminated => simp [hshape, Piece.size?] at h
  | skipped n =>
    rw [hshape] at h
    obtain rfl := Option.some.inj h
    rfl
  | found kind name n =>
    rw [hshape] at h
    obtain rfl := Option.some.inj h
    rfl

-- There is nothing to stop at in a text that the scan comes to the end of.
theorem stopFrom_eq_none_iff {offset : Nat} {text : Text} :
    stopFrom offset text = none ↔ scansThrough text := by
  fun_induction stopFrom offset text with
  | case1 offset => simp [scansThrough]
  | case2 offset b rest hpiece => simp [scansThrough, hpiece]
  | case3 offset b rest size hpiece ih => rw [scansThrough, hpiece, ih]
  | case4 offset b rest kind name size hpiece ih => rw [scansThrough, hpiece, ih]

/-- A scan that comes to a `<` stops where it does from there on. -/
theorem stopFrom_append_of_scansThrough {front : Text} (h : scansThrough (front ++ [Byte.less]))
    (offset : Nat) (tail : Text) :
    stopFrom offset (front ++ Byte.less :: tail) =
      stopFrom (offset + front.length) (Byte.less :: tail) := by
  refine scansThrough_induction (motive := fun front => ∀ offset,
    stopFrom offset (front ++ Byte.less :: tail) =
      stopFrom (offset + front.length) (Byte.less :: tail)) ?_ ?_ h offset
  · intro offset
    rfl
  · intro b front size hsame hsize hpos hle ih offset
    obtain ⟨hdrop, hoffset⟩ := drop_behind (b := b) hpos hle offset
    rw [List.cons_append, stopFrom_of_size ((hsame tail).symm ▸ hsize), hdrop, ih, hoffset]

/-! ## What is in front -/

-- The scan only goes forward.
theorem le_of_stopFrom {offset stop : Nat} {text : Text} (h : stopFrom offset text = some stop) :
    offset ≤ stop := by
  fun_induction stopFrom offset text with
  | case1 offset => simp at h
  | case2 offset b rest hpiece => exact (Option.some.inj h).le
  | case3 offset b rest size hpiece ih => exact (Nat.le_add_right offset size).trans (ih h)
  | case4 offset b rest kind name size hpiece ih =>
    exact (Nat.le_add_right offset size).trans (ih h)

-- Nothing is reported behind the place where the scan stops.
theorem stop_le_of_stopFrom {offset stop : Nat} {text : Text} {e : Event}
    (h : stopFrom offset text = some stop) (he : e ∈ eventsFrom offset text) : e.stop ≤ stop := by
  fun_induction stopFrom offset text with
  | case1 offset => simp at h
  | case2 offset b rest hpiece =>
    rw [eventsFrom_of_unterminated hpiece] at he
    exact absurd he List.not_mem_nil
  | case3 offset b rest size hpiece ih =>
    rw [eventsFrom, hpiece] at he
    exact ih h he
  | case4 offset b rest kind name size hpiece ih =>
    rw [eventsFrom, hpiece] at he
    rcases List.mem_cons.mp he with rfl | he
    · exact le_of_stopFrom h
    · exact ih h he

/-- All that is reported stands in front of the place where the scan stops. -/
theorem eventsFrom_take_stop {stop : Nat} {text : Text} (h : stopFrom 0 text = some stop) :
    eventsFrom 0 (text.take stop) = eventsFrom 0 text := by
  rw [eventsFrom_take, Nat.zero_add, List.filter_eq_self]
  intro e he
  exact decide_eq_true (stop_le_of_stopFrom h he)

-- A construct without an end changes nothing about which elements are open.
theorem parentElement_take_stop {stop : Nat} {text : Text} (h : stopFrom 0 text = some stop) :
    parentElement .unlimited (text.take stop) = parentElement .unlimited text := by
  rw [parentElement_unlimited, parentElement_unlimited, eventsFrom_take_stop h]

/-! ## Start tags that do not end -/

structure StopsInTag (text : Text) (start : Nat) (name : Text) : Prop where
  stop : stopFrom 0 text = some start
  less : text[start]? = some Byte.less
  name_eq : takeName (text.drop (start + 1)) = name
  ne_nil : name ≠ []

-- A tag without a `>` in all that follows has no end.
theorem piece_of_bracketFree {name rest : Text} (hname : takeName (name ++ rest) = name)
    (hne : name ≠ []) (hrest : BracketFree rest) :
    piece Byte.less (name ++ rest) = .unterminated := by
  obtain ⟨b, more, rfl⟩ := List.exists_cons_of_ne_nil hne
  have hfirst : takeName (b :: (more ++ rest)) ≠ [] := hname.symm ▸ hne
  have hb := isNameStart_of_takeName hfirst
  -- A name begins with none of the marks of the other constructs.
  have hother (c : UInt8) (hc : isNameStart c = false) : b ≠ c := by
    rintro rfl
    simp [hc] at hb
  obtain ⟨slash, hend⟩ := tagEnd_append_of_bracketFree hrest none false 0 []
  rw [List.append_nil, tagEnd] at hend
  rw [piece, if_pos rfl, List.cons_append, construct_other (hother _ (by decide))
    (hother _ (by decide)) (hother _ (by decide)), ← List.cons_append, startTag, hname, if_neg hne,
    List.drop_left, hend]
  rfl

theorem stopsInTag_append {front name rest : Text} (hname : takeName (name ++ rest) = name)
    (hne : name ≠ []) (hrest : BracketFree rest) (hscan : scansThrough (front ++ [Byte.less])) :
    StopsInTag (front ++ Byte.less :: (name ++ rest)) front.length name where
  stop := by
    rw [stopFrom_append_of_scansThrough hscan, Nat.zero_add]
    exact stopFrom_of_unterminated (piece_of_bracketFree hname hne hrest) front.length
  less := by simp
  name_eq := by rw [List.drop_length_add_append, List.drop_succ_cons, List.drop_zero, hname]
  ne_nil := hne

-- Walking back from the end comes to the `<` of the tag that has no end.
theorem StopsInTag.enclosingTag_eq {text name : Text} {start : Nat} (h : StopsInTag text start name)
    (hrest : BracketFree (text.drop (start + 1 + name.length))) :
    enclosingTag text = some ⟨name, text.drop (start + 1 + name.length)⟩ := by
  have hwhole : takeName name = name := by rw [← h.name_eq, takeName_takeName]
  have hstarts : StartsTag text start ⟨name, hwhole, h.ne_nil⟩ := ⟨h.less, h.name_eq⟩
  have hdrop := hstarts.drop_start
  simp only at hdrop
  have hbytes : BracketFree name := bracketFree_of_isNameByte fun b hb =>
    isNameByte_of_mem_takeName (hwhole.symm ▸ hb)
  refine enclosingTag_eq_some_iff.mpr ⟨text.take start, ?_, hbytes.append hrest, ?_, h.ne_nil⟩
  · rw [← hdrop, List.take_append_drop]
  · have hbehind := congrArg (List.drop 1) hdrop
    rw [List.drop_drop, List.drop_succ_cons, List.drop_zero] at hbehind
    rw [← hbehind, h.name_eq]

/-- Looking backwards and scanning forward find the same start tag. If the scan comes to the `<` of
the tag that encloses the end of a text, it stops there, at a start tag of the same name, reports
nothing from there on and leaves the innermost open element as it is in front of the tag. If it
stops at a start tag and no angle bracket stands behind its name, that tag encloses the end. -/
theorem tag_scans_agree (text : Text) :
    (∀ tag, enclosingTag text = some tag →
      let start := text.length - tag.rest.length - tag.name.length - 1
      stopFrom 0 (text.take (start + 1)) = none →
        StopsInTag text start tag.name ∧
        (∃ events, scan .unlimited text = .ok events ∧ ∀ e ∈ events, e.start < start) ∧
        parentElement .unlimited text = parentElement .unlimited (text.take start)) ∧
    ∀ start name, StopsInTag text start name →
      BracketFree (text.drop (start + 1 + name.length)) →
        enclosingTag text = some ⟨name, text.drop (start + 1 + name.length)⟩ := by
  refine ⟨fun tag htag => ?_, fun start name hstops hrest => hstops.enclosingTag_eq hrest⟩
  obtain ⟨front, rfl, hfree, hname, hne⟩ := enclosingTag_eq_some_iff.mp htag
  have hrest : BracketFree tag.rest := fun b hb => hfree b (List.mem_append_right _ hb)
  have hstart : (front ++ Byte.less :: (tag.name ++ tag.rest)).length - tag.rest.length -
      tag.name.length - 1 = front.length := by
    simp only [List.length_append, List.length_cons]
    omega
  intro start hstop
  have hfront : start = front.length := hstart
  clear_value start
  subst hfront
  rw [stopFrom_eq_none_iff, List.take_length_add_append, List.take_succ_cons, List.take_zero]
    at hstop
  have hstops := stopsInTag_append hname hne hrest hstop
  refine ⟨hstops, ⟨_, scan_unlimited _, fun e he => ?_⟩, (parentElement_take_stop hstops.stop).symm⟩
  have hbounds := bounds_of_mem_eventsFrom he
  have hend := stop_le_of_stopFrom hstops.stop he
  omega

/-- A tag in a comment is none, and behind the name of the last tag the quotes do not matter. -/
theorem tag_scans_agree_comment :
    let text := utf8 "<g><!-- <b --><rect x='1\" "
    enclosingTag text = some ⟨utf8 "rect", utf8 " x='1\" "⟩ ∧
      stopFrom 0 (text.take 15) = none ∧ StopsInTag text 14 (utf8 "rect") ∧
      parentElement .unlimited text = .ok (some (utf8 "g")) ∧
      BracketFree (text.drop (14 + 1 + 4)) := by
  intro text
  have htag : enclosingTag text = some ⟨utf8 "rect", utf8 " x='1\" "⟩ := by decide
  have hscan : stopFrom 0 (text.take 15) = none := by
    have htake : text.take 15 = utf8 "<g><!-- <b --><" := rfl
    rw [htake]
    cbv
  have hopen : parentElement .unlimited (text.take 14) = .ok (some (utf8 "g")) := by
    have htake : text.take 14 = utf8 "<g><!-- <b -->" := rfl
    rw [htake]
    cbv
  have hstart : text.length - (utf8 " x='1\" ").length - (utf8 "rect").length - 1 = 14 := by decide
  have hforward := (tag_scans_agree text).1 _ htag
  rw [hstart] at hforward
  obtain ⟨hstops, -, hparent⟩ := hforward hscan
  have hfree : BracketFree (text.drop (14 + 1 + 4)) := by decide
  exact ⟨(tag_scans_agree text).2 14 (utf8 "rect") hstops hfree, hscan, hstops,
    hparent.trans hopen, hfree⟩

end SvgAssist.Markup
