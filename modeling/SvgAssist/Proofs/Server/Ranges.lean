import SvgAssist.Proofs.Markup.Edges
import SvgAssist.Proofs.Markup.StartTag
import SvgAssist.Proofs.Server.Nesting
import SvgAssist.Proofs.Server.Order
import SvgAssist.Proofs.Server.Places

/-!
# The ranges of symbols

The symbol of an element has the client positions of the edges of its span and of its name. An
element begins at a `<` and ends at one, behind a `>` or with the text, where client positions are
in the order of the offsets. So the ranges of the symbols lie to each other as the spans do.
-/

namespace SvgAssist.Server

open Grammar Markup Text

variable {text : Text}

/-! ## Elements of an outline -/

structure Placed (text : Text) (e : Markup.Element) : Prop where
  covers : Covers (eventsFrom 0 text) text.length e.name e.span
  children : Laminar (Covers (eventsFrom 0 text) text.length)
    (e.span.start + 1) e.span.stop e.children

-- An element of some trees is placed in the text at any depth.
theorem placed_of_nests {lo hi : Nat} {parent above : Option Text} {es : List Markup.Element}
    {e : Markup.Element} (h : Laminar (Covers (eventsFrom 0 text) text.length) lo hi es)
    (he : Nests Markup.Element.name Markup.Element.children e parent above es) : Placed text e :=
  ⟨(h.of_nests he).1, (h.of_nests he).2⟩

theorem placed_of_mem {lo hi : Nat} {es : List Markup.Element} {e : Markup.Element}
    (h : Laminar (Covers (eventsFrom 0 text) text.length) lo hi es) (he : e ∈ es) :
    Placed text e :=
  placed_of_nests h (.here he : Nests _ _ e none none es)

namespace Placed

variable {c : Catalog} {e : Markup.Element} (h : Placed text e)
include h

theorem child {a : Markup.Element} (ha : a ∈ e.children) : Placed text a :=
  placed_of_mem h.children ha

-- An element ends at a tag or with the text, so a cursor can stand there.
theorem edge_stop : Edge text e.span.stop := by
  rcases h.covers.isEnd with hend | ⟨a, ha, -, hend⟩
  · exact .inr hend
  obtain ⟨hless, hgreater⟩ := edges_of_mem_eventsFrom ha
  have hbounds := bounds_of_mem_eventsFrom ha
  rw [Nat.sub_zero] at hless hgreater
  left
  rcases hend with hend | hend
  · exact hend ▸ .before_ascii hless (by decide) (by decide)
  · have hstop : a.stop - 1 + 1 = e.span.stop := by omega
    exact hstop ▸ .behind_ascii hgreater (by decide) (by decide)

theorem edge_start : Edge text e.span.start := by
  obtain ⟨name, -, htag⟩ := h.covers.isStart.startsTag
  exact .inl (.before_ascii htag.less (by decide) (by decide))

-- A cursor can stand between any two bytes of a name.
theorem caret_name {j : Nat} (hj : j ≤ e.name.length) : Caret text (e.span.start + 1 + j) := by
  obtain ⟨name, hname, htag⟩ := h.covers.isStart.startsTag
  exact htag.caret (hname ▸ hj)

/-! ## Ranges -/

theorem range_eq : (Symbol.ofElement c (.ofText text) e).range =
    ⟨clientPositionAt text e.span.start, clientPositionAt text e.span.stop⟩ := by
  rw [Symbol.range_ofElement, span_ofText h.edge_start.le_length h.edge_stop.le_length]

theorem selection_eq : (Symbol.ofElement c (.ofText text) e).selection =
    ⟨clientPositionAt text (e.span.start + 1 : Nat),
      clientPositionAt text (e.span.start + 1 + e.name.length : Nat)⟩ := by
  rw [Symbol.selection_ofElement, span_ofText (h.caret_name (Nat.zero_le _)).le_length
    (h.caret_name le_rfl).le_length]

variable (hlen : text.length < UInt32.size)
include hlen

theorem selection_le :
    (Symbol.ofElement c (.ofText text) e).selection.start ≤
      (Symbol.ofElement c (.ofText text) e).selection.stop := by
  rw [h.selection_eq]
  exact clientPositionAt_le hlen (.inl (h.caret_name (Nat.zero_le _))) (Nat.le_add_right _ _)

-- The name is inside of the start tag, and positions keep the order of offsets.
theorem selection_within :
    (Symbol.ofElement c (.ofText text) e).selection.Within
      (Symbol.ofElement c (.ofText text) e).range := by
  have hcovers := h.covers.covers
  rw [h.range_eq, h.selection_eq]
  exact ⟨clientPositionAt_le hlen h.edge_start (by omega),
    clientPositionAt_le hlen (.inl (h.caret_name le_rfl)) (by omega)⟩

-- Children lie inside of their parent, and positions keep the order of offsets.
theorem children_within :
    ∀ child ∈ (Symbol.ofElement c (.ofText text) e).children,
      child.range.Within (Symbol.ofElement c (.ofText text) e).range := by
  intro child hchild
  rw [Symbol.children_ofElement] at hchild
  obtain ⟨a, ha, rfl⟩ := List.mem_map.mp hchild
  obtain ⟨hlo, hhi⟩ := h.children.bounds ha
  rw [h.range_eq, (h.child ha).range_eq]
  exact ⟨clientPositionAt_le hlen h.edge_start (by omega),
    clientPositionAt_le hlen (h.child ha).edge_stop hhi⟩

end Placed

-- Symbols stand to one another as the elements do.
theorem ranges_ordered (c : Catalog) (hlen : text.length < UInt32.size) {es : List Markup.Element}
    (hes : ∀ e ∈ es, Placed text e) (h : es.Pairwise fun a b => a.span.stop ≤ b.span.start) :
    (es.map (Symbol.ofElement c (.ofText text))).Pairwise
      fun a b => a.range.stop ≤ b.range.start := by
  refine List.pairwise_map.mpr (h.imp_of_mem fun {a b} ha hb hle => ?_)
  rw [(hes a ha).range_eq, (hes b hb).range_eq]
  exact clientPositionAt_le hlen (hes a ha).edge_stop hle

end SvgAssist.Server
