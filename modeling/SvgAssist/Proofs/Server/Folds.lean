import SvgAssist.Proofs.Server.Ranges

/-!
# Folds

A part of the outline can be folded just when it goes over a line end, and its fold says on which
lines its first and its last byte stand (`Inside.ofSpan?_eq`). The folds of the elements come
in the order of their first lines, and of two folds the later lies in the earlier or begins no
sooner than where that ends (`folds_nest`).
-/

namespace SvgAssist

namespace Markup

/-! ## Spans parents first -/

/-- The spans of some trees, parents first, lie between the bounds of the trees, and of two spans
the later lies in the earlier or behind it. -/
theorem Laminar.walkAll {P : Text → Span → Prop} {lo hi : Nat} {es : List Element}
    (h : Laminar P lo hi es) (depth : Nat) :
    (∀ a ∈ Element.walkAll depth es, P a.2.1 a.2.2 ∧ lo ≤ a.2.2.start ∧ a.2.2.stop ≤ hi) ∧
      (Element.walkAll depth es).Pairwise fun a b => b.2.2.Within a.2.2 ∨ a.2.2.Before b.2.2 := by
  induction h generalizing depth with
  | nil hle =>
    rw [Element.walkAll]
    exact ⟨List.forall_mem_nil _, .nil⟩
  | @cons lo hi name span children es hstart hspan hchildren hrest hinner houter =>
    obtain ⟨hinside, hpairsInside⟩ := hinner (depth + 1)
    obtain ⟨hbehind, hpairsBehind⟩ := houter depth
    have hopen := hchildren.le
    have hclose := hrest.le
    rw [Element.walkAll, Element.walk, List.cons_append]
    refine ⟨?_, List.pairwise_cons.mpr ⟨?_, List.pairwise_append.mpr
      ⟨hpairsInside, hpairsBehind, ?_⟩⟩⟩
    · intro a ha
      rcases List.mem_cons.mp ha with rfl | ha
      · exact ⟨hspan, hstart, hclose⟩
      rcases List.mem_append.mp ha with ha | ha
      · obtain ⟨hP, hlo, hhi⟩ := hinside a ha
        exact ⟨hP, by omega, by omega⟩
      · obtain ⟨hP, hlo, hhi⟩ := hbehind a ha
        exact ⟨hP, by omega, by omega⟩
    · intro a ha
      rcases List.mem_append.mp ha with ha | ha
      · obtain ⟨-, hlo, hhi⟩ := hinside a ha
        exact .inl ⟨Nat.le_of_succ_le hlo, hhi⟩
      · exact .inr (hbehind a ha).2.1
    · intro a ha b hb
      exact .inr ((hinside a ha).2.2.trans (hbehind b hb).2.1)

end Markup

namespace Server

open Markup Text

variable {text : Text} {span : Span} {kind : FoldKind}

/-! ## The fold of a span -/

/-- A span whose last byte is on a later line than its first. -/
def BreaksLine (text : Text) (span : Span) : Prop :=
  Byte.newline ∈ Span.bytes text ⟨span.start, span.stop - 1⟩

instance (text : Text) (span : Span) : Decidable (BreaksLine text span) :=
  inferInstanceAs (Decidable (_ ∈ _))

/-- A fold from the line of the first byte of a span to that of its last. -/
structure Fold.Of (text : Text) (kind : FoldKind) (span : Span) (f : Fold) : Prop where
  startLine : f.startLine.toNat = (text.take span.start).count Byte.newline
  endLine : f.endLine.toNat = (text.take (span.stop - 1)).count Byte.newline
  kind : f.kind = kind

structure Inside (text : Text) (span : Span) : Prop where
  start_lt_stop : span.start < span.stop
  stop_le_length : span.stop ≤ text.length

namespace Inside

variable (h : Inside text span)
include h

theorem breaksLine_iff : BreaksLine text span ↔
    (text.take span.start).count Byte.newline < (text.take (span.stop - 1)).count Byte.newline := by
  have hstart := h.start_lt_stop
  have hstop : span.stop - 1 = span.start + (span.stop - 1 - span.start) := by omega
  rw [BreaksLine, Span.bytes, ← List.count_pos_iff]
  conv_rhs => rw [hstop, List.take_add, List.count_append]
  exact Nat.lt_add_right_iff_pos.symm

variable (hlen : text.length < UInt32.size)
include hlen

/-- A span has a fold just when it breaks a line. -/
theorem ofSpan?_eq (kind : FoldKind) :
    (BreaksLine text span → ∃ f, Fold.ofSpan? (.ofText text) kind span = some f ∧
      Fold.Of text kind span f) ∧
    (¬ BreaksLine text span → Fold.ofSpan? (.ofText text) kind span = none) := by
  have hstart := h.start_lt_stop
  have hstop := h.stop_le_length
  have hfirst := (Fits.of_length hlen span.start).line
  have hlast := (Fits.of_length hlen (span.stop - 1)).line
  unfold Fold.ofSpan?
  rw [if_neg (by omega), line_ofText (by omega), line_ofText (by omega), h.breaksLine_iff]
  refine ⟨fun hbreaks => ?_, fun hbreaks => ?_⟩
  · exact ⟨_, if_neg (Nat.not_le.mpr hbreaks), toNat_word hfirst, toNat_word hlast, rfl⟩
  · exact if_pos (Nat.not_lt.mp hbreaks)

end Inside

/-! ## The folds of a document -/

-- The spans that break a line have their folds, in order.
theorem forall₂_ofSpan? (hlen : text.length < UInt32.size) {spans : List Span}
    (hspans : ∀ span ∈ spans, Inside text span) :
    List.Forall₂ (Fold.Of text kind) (spans.filter (BreaksLine text ·))
      (spans.filterMap (Fold.ofSpan? (.ofText text) kind)) := by
  induction spans with
  | nil => exact .nil
  | cons span spans ih =>
    have hrest := ih fun s hs => hspans s (List.mem_cons_of_mem span hs)
    obtain ⟨hsome, hnone⟩ := (hspans span List.mem_cons_self).ofSpan?_eq hlen kind
    by_cases hbreaks : BreaksLine text span
    · obtain ⟨f, hf, hof⟩ := hsome hbreaks
      rw [List.filter_cons_of_pos (by simpa using hbreaks), List.filterMap_cons_some hf]
      exact .cons hof hrest
    · rw [List.filter_cons_of_neg (by simpa using hbreaks),
        List.filterMap_cons_none (hnone hbreaks)]
      exact hrest

-- A fold that is given is that of its span.
theorem of_of_ofSpan? (hlen : text.length < UInt32.size) (h : Inside text span) {f : Fold}
    (hf : Fold.ofSpan? (.ofText text) kind span = some f) : Fold.Of text kind span f := by
  obtain ⟨hsome, hnone⟩ := h.ofSpan?_eq hlen kind
  by_cases hbreaks : BreaksLine text span
  · obtain ⟨g, hg, hof⟩ := hsome hbreaks
    obtain rfl := Option.some.inj (hg.symm.trans hf)
    exact hof
  · exact absurd (hf.symm.trans (hnone hbreaks)) (Option.some_ne_none f)

-- Nested spans have nested lines, and spans that follow each other have lines that do.
theorem Fold.Of.lines_nest {a b : Span} {f g : Fold} (hf : Fold.Of text kind a f)
    (hg : Fold.Of text kind b g) (ha : a.start < a.stop) (h : b.Within a ∨ a.Before b) :
    f.startLine ≤ g.startLine ∧ (g.endLine ≤ f.endLine ∨ f.endLine ≤ g.startLine) := by
  simp only [UInt32.le_iff_toNat_le, hf.startLine, hf.endLine, hg.startLine, hg.endLine]
  rcases h with ⟨hstart, hstop⟩ | hbefore
  · exact ⟨count_take_le text hstart, .inl (count_take_le text (Nat.sub_le_sub_right hstop 1))⟩
  · unfold Span.Before at hbefore
    exact ⟨count_take_le text (by omega), .inr (count_take_le text (by omega))⟩

/-- The folds of a document are those of its elements, parents first, and of its comments, as far as
they break a line. The folds of elements come in the order of their first lines, and each later one
lies in an earlier one or begins no sooner than where that ends. -/
theorem folds_nest {s : Session} {uri : Text} {d : Document} (hbudget : s.budget = .unlimited)
    (hdocument : s.documents.get? uri = some d) (hlen : d.text.length < UInt32.size) :
    ∃ o regions comments, Outline.parse .unlimited d.text = .ok o ∧
      s.foldingRange uri =
        (if regions ++ comments = [] then .nothing else .folds (regions ++ comments)) ∧
      List.Forall₂ (Fold.Of d.text .region)
        ((o.walk.map (·.2.2)).filter (BreaksLine d.text ·)) regions ∧
      List.Forall₂ (Fold.Of d.text .comment)
        (o.comments.filter (BreaksLine d.text ·)) comments ∧
      regions.Pairwise fun a b =>
        a.startLine ≤ b.startLine ∧ (b.endLine ≤ a.endLine ∨ a.endLine ≤ b.startLine) := by
  have hparse := parse_unlimited d.text
  obtain ⟨hwalk, hpairs⟩ := (laminar_of_parse hparse).walkAll 0
  have hcomments := comments_of_parse hparse
  set o := ((eventsFrom 0 d.text).foldl Draft.step .empty).finish d.text.length
  have hregion : ∀ a ∈ o.walk, Inside d.text a.2.2 := fun a ha => by
    obtain ⟨hcovers, -, hstop⟩ := hwalk a ha
    exact ⟨by have := hcovers.covers; omega, hstop⟩
  have hcomment : ∀ span ∈ o.comments, Inside d.text span := fun span hspan => by
    rw [hcomments] at hspan
    obtain ⟨e, he, rfl⟩ := List.mem_map.mp hspan
    have := bounds_of_mem_eventsFrom (List.mem_of_mem_filter he)
    exact ⟨by simp only; omega, by simp only; omega⟩
  have hregions : (o.walk.map (·.2.2)).filterMap (Fold.ofSpan? (.ofText d.text) .region) =
      o.walk.filterMap fun a => Fold.ofSpan? (.ofText d.text) .region a.2.2 := List.filterMap_map
  refine ⟨o, _, _, hparse, ?_, forall₂_ofSpan? hlen fun span hspan => ?_,
    forall₂_ofSpan? hlen hcomment, ?_⟩
  · simp only [Session.foldingRange, hdocument, hbudget, hparse]
    have hfolds : Fold.ofOutline (.ofText d.text) o =
        (o.walk.map (·.2.2)).filterMap (Fold.ofSpan? (.ofText d.text) .region) ++
          o.comments.filterMap (Fold.ofSpan? (.ofText d.text) .comment) := by
      rw [hregions]
      rfl
    rw [hfolds]
    split
    · rename_i hnil
      rw [if_pos hnil]
    · rename_i hne
      rw [if_neg hne]
  · obtain ⟨a, ha, rfl⟩ := List.mem_map.mp hspan
    exact hregion a ha
  · rw [hregions, List.pairwise_filterMap]
    refine List.Pairwise.imp_of_mem (fun {a b} ha hb h f hf g hg => ?_) hpairs
    exact (of_of_ofSpan? hlen (hregion a ha) hf).lines_nest (of_of_ofSpan? hlen (hregion b hb) hg)
      (hregion a ha).start_lt_stop h

-- The folds of the elements come parents first, and that of the comment last.
theorem folds_nest_comment :
    let text := utf8 "<a>\n<b>\n</b><c/><!--\n--></a>"
    let s : Session := ⟨⟨[], []⟩, .unlimited, ⟨[⟨utf8 "u", 1, text⟩]⟩, true, none⟩
    text.length < UInt32.size ∧
      s.foldingRange (utf8 "u") =
        .folds [⟨0, 3, .region⟩, ⟨1, 2, .region⟩, ⟨2, 3, .comment⟩] ∧
      ∃ o regions comments, Outline.parse .unlimited text = .ok o ∧
        regions ++ comments = [⟨0, 3, .region⟩, ⟨1, 2, .region⟩, ⟨2, 3, .comment⟩] ∧
        List.Forall₂ (Fold.Of text .region)
          ((o.walk.map (·.2.2)).filter (BreaksLine text ·)) regions := by
  intro text s
  have hanswer : s.foldingRange (utf8 "u") =
      .folds [⟨0, 3, .region⟩, ⟨1, 2, .region⟩, ⟨2, 3, .comment⟩] := by
    subst s text
    cbv
  have hlen : text.length < UInt32.size := by decide
  have hdocument : s.documents.get? (utf8 "u") = some ⟨utf8 "u", 1, text⟩ := rfl
  obtain ⟨o, regions, comments, hparse, hfolds, hregions, -, -⟩ := folds_nest rfl hdocument hlen
  refine ⟨hlen, hanswer, o, regions, comments, hparse, ?_, hregions⟩
  rw [hanswer] at hfolds
  split at hfolds
  · simp at hfolds
  · exact (Answer.folds.inj hfolds).symm

end Server

end SvgAssist
