import SvgAssist.Proofs.Markup.Document
import SvgAssist.Proofs.Markup.Nesting
import Mathlib.Data.List.Pairwise

/-!
# Spans

In the outline of any text, well-formed or not, the span of an element begins with its tag and lies
inside of its parent's, behind the spans of the siblings in front of it, and no comment stands
across the end of an element (`spans_laminar`).

An element ends at one of four moments. Each of them is the edge of a tag or the end of the text
(`IsEnd`), and no draft lets an element end in front of what is complete inside of it
(`StackLaminar`).
-/

namespace SvgAssist.Markup

/-! ## Trees of spans -/

/-- Elements that stand one after the other between two offsets, each with its children behind its
own start and in front of its end. Names and spans have the property `P`. -/
inductive Laminar (P : Text → Span → Prop) : (lo hi : Nat) → List Element → Prop
  | nil {lo hi : Nat} : lo ≤ hi → Laminar P lo hi []
  | cons {lo hi : Nat} {name : Text} {span : Span} {children es : List Element} :
      lo ≤ span.start → P name span → Laminar P (span.start + 1) span.stop children →
      Laminar P span.stop hi es → Laminar P lo hi (.mk name span children :: es)

namespace Laminar

variable {P : Text → Span → Prop} {lo hi : Nat} {es : List Element}

-- The bounds of some trees are in order.
theorem le (h : Laminar P lo hi es) : lo ≤ hi := by
  induction h with
  | nil hle => exact hle
  | cons hstart _ _ _ hinner hrest => omega

-- There may be more room behind them.
theorem mono (h : Laminar P lo hi es) {later : Nat} (hlater : hi ≤ later) :
    Laminar P lo later es := by
  induction h with
  | nil hle => exact .nil (hle.trans hlater)
  | cons hstart hspan hchildren _ _ hrest => exact .cons hstart hspan hchildren (hrest hlater)

-- One more element behind the others.
theorem concat (h : Laminar P lo hi es) {name : Text} {span : Span} {children : List Element}
    (hstart : hi ≤ span.start) (hspan : P name span)
    (hchildren : Laminar P (span.start + 1) span.stop children) :
    Laminar P lo span.stop (es ++ [.mk name span children]) := by
  induction h with
  | nil hle => exact .cons (hle.trans hstart) hspan hchildren (.nil le_rfl)
  | cons hfirst hfirstSpan hinner _ _ hrest =>
    exact .cons hfirst hfirstSpan hinner (hrest hstart)

theorem bounds (h : Laminar P lo hi es) {e : Element} (he : e ∈ es) :
    lo ≤ e.span.start ∧ e.span.stop ≤ hi := by
  induction h with
  | nil hle => simp at he
  | cons hstart _ hchildren hrest _ ih =>
    rcases List.mem_cons.mp he with rfl | he
    · exact ⟨hstart, hrest.le⟩
    · have hinside := hchildren.le
      have hbehind := ih he
      omega

-- Siblings come one behind the other.
theorem pairwise (h : Laminar P lo hi es) :
    es.Pairwise fun a b => a.span.stop ≤ b.span.start := by
  induction h with
  | nil hle => exact .nil
  | cons _ _ _ hrest _ ih => exact .cons (fun e he => (hrest.bounds he).1) ih

-- What is so of some trees is so inside of each of their elements.
theorem of_nests (h : Laminar P lo hi es) {e : Element} {parent above : Option Text}
    (he : Nests Element.name Element.children e parent above es) :
    P e.name e.span ∧ Laminar P (e.span.start + 1) e.span.stop e.children := by
  -- The element is found going down, and on each level it is the first of the rest of its list.
  have hnode {lo hi : Nat} {es : List Element} (h : Laminar P lo hi es) {e : Element}
      (hmem : e ∈ es) : P e.name e.span ∧ Laminar P (e.span.start + 1) e.span.stop e.children := by
    induction h with
    | nil hle => simp at hmem
    | cons _ hspan hchildren _ _ ih =>
      rcases List.mem_cons.mp hmem with rfl | hmem
      · exact ⟨hspan, hchildren⟩
      · exact ih hmem
  induction he generalizing lo hi with
  | here hmem => exact hnode h hmem
  | inside houter _ ih => exact ih (hnode h houter).2

end Laminar

/-! ## The edges of an element -/

def IsEnd (events : List Event) (limit stop : Nat) : Prop :=
  stop = limit ∨
    ∃ e ∈ events, (e.kind = .closed ∨ e.kind = .selfClosed) ∧ (stop = e.start ∨ stop = e.stop)

def IsStart (events : List Event) (name : Text) (start : Nat) : Prop :=
  ∃ e ∈ events, (e.kind = .opened ∨ e.kind = .selfClosed) ∧ e.name = name ∧ e.start = start

/-- A span from a start tag of this name, which it covers, to a place where an element can end. -/
structure Covers (events : List Event) (limit : Nat) (name : Text) (span : Span) : Prop where
  isStart : IsStart events name span.start
  isEnd : IsEnd events limit span.stop
  covers : span.start + 1 + name.length < span.stop

/-! ## Drafts -/

/-- The open elements of a draft with what is complete in them and in front of them: everything in
an open element ends before the next one was opened, and in the innermost one before `now`. -/
def StackLaminar (events : List Event) (limit : Nat) (roots : List Element) (now : Nat) :
    List OpenElement → Prop
  | [] => Laminar (Covers events limit) 0 now roots.reverse
  | top :: below =>
    IsStart events top.name top.start ∧ top.start + 1 + top.name.length < now ∧
      Laminar (Covers events limit) (top.start + 1) now top.children.reverse ∧
      StackLaminar events limit roots top.start below

-- What is complete stays in its place as the scan goes on.
theorem StackLaminar.mono {events : List Event} {limit now later : Nat} {roots : List Element}
    {stack : List OpenElement} (h : StackLaminar events limit roots now stack)
    (hlater : now ≤ later) : StackLaminar events limit roots later stack := by
  cases stack with
  | nil => exact Laminar.mono h hlater
  | cons top below =>
    obtain ⟨hstart, hcovers, hchildren, hbelow⟩ := h
    exact ⟨hstart, hcovers.trans_le hlater, hchildren.mono hlater, hbelow⟩

namespace Draft

abbrev InPlace (events : List Event) (limit now : Nat) (d : Draft) : Prop :=
  StackLaminar events limit d.roots now d.stack

variable {events : List Event} {limit now stop : Nat} {d : Draft}

-- A complete element goes to the innermost open one, behind its other children.
theorem InPlace.add (h : d.InPlace events limit now) {name : Text} {span : Span}
    {children : List Element} (hstart : now ≤ span.start) (hspan : Covers events limit name span)
    (hchildren : Laminar (Covers events limit) (span.start + 1) span.stop children) :
    (d.add (.mk name span children)).InPlace events limit span.stop := by
  unfold InPlace at h ⊢
  unfold Draft.add
  split
  · rename_i hstack
    rw [hstack] at h
    simp only [hstack, StackLaminar, List.reverse_cons] at h ⊢
    exact h.concat hstart hspan hchildren
  · rename_i top below hstack
    rw [hstack] at h
    obtain ⟨hopen, hcovers, hinner, hbelow⟩ := h
    have hlonger : now ≤ span.stop := hstart.trans (Nat.le_of_succ_le hchildren.le)
    refine ⟨hopen, hcovers.trans_le hlonger, ?_, hbelow⟩
    rw [List.reverse_cons]
    exact hinner.concat hstart hspan hchildren

-- The element is complete at `stop`, and the one that it is in goes on from there.
theorem InPlace.closeTop (h : d.InPlace events limit now) (hstop : now ≤ stop)
    (hend : IsEnd events limit stop) : (d.closeTop stop).InPlace events limit stop := by
  unfold Draft.closeTop
  split
  · exact StackLaminar.mono h hstop
  · rename_i top below hstack
    unfold InPlace at h
    rw [hstack] at h
    obtain ⟨hopen, hcovers, hinner, hbelow⟩ := h
    have hrest : InPlace events limit top.start { d with stack := below } := hbelow
    have hspan : Covers events limit top.name ⟨top.start, stop⟩ :=
      ⟨hopen, hend, hcovers.trans_le hstop⟩
    exact hrest.add le_rfl hspan (hinner.mono hstop)

-- By induction on the number of elements to be closed, all of them at one offset.
theorem InPlace.closeMany (h : d.InPlace events limit now) (hstop : now ≤ stop)
    (hend : IsEnd events limit stop) (n : Nat) :
    (d.closeMany stop n).InPlace events limit stop := by
  induction n generalizing d now with
  | zero => exact StackLaminar.mono h hstop
  | succ n ih => exact ih (h.closeTop hstop hend) le_rfl

-- An event that stands behind everything so far leaves all in place, up to where it ends.
theorem InPlace.step (h : d.InPlace events limit now) {e : Event} (he : e ∈ events)
    (hstart : now ≤ e.start) (hstop : e.start + e.name.length + 2 ≤ e.stop) :
    (d.step e).InPlace events limit e.stop := by
  unfold Draft.step
  cases hkind : e.kind with
  | opened =>
    refine ⟨⟨e, he, .inl hkind, rfl, rfl⟩, ?_, .nil ?_, StackLaminar.mono h hstart⟩
    · simp only
      omega
    · simp only
      omega
  | selfClosed =>
    have hspan : Covers events limit e.name ⟨e.start, e.stop⟩ :=
      ⟨⟨e, he, .inr hkind, rfl, rfl⟩, .inr ⟨e, he, .inr hkind, .inr rfl⟩, by simp only; omega⟩
    exact h.add hstart hspan (.nil (by simp only; omega))
  | comment => exact StackLaminar.mono h (by omega)
  | closed =>
    simp only
    split
    · exact StackLaminar.mono h (by omega)
    -- Those inside of the element that is closed end where the tag begins, and it ends behind it.
    · exact (h.closeMany hstart (.inr ⟨e, he, .inl hkind, .inl rfl⟩) _).closeTop (by omega)
        (.inr ⟨e, he, .inl hkind, .inr rfl⟩)

-- The invariant of a run: by induction on the events, each of which begins where the others have
-- ended.
theorem InPlace.foldl {rest : List Event} (h : d.InPlace events limit now)
    (hmem : ∀ e ∈ rest, e ∈ events) (horder : rest.Pairwise fun a b => a.stop ≤ b.start)
    (hbounds : ∀ e ∈ rest, now ≤ e.start ∧ e.start + e.name.length + 2 ≤ e.stop ∧ e.stop ≤ limit)
    (hlimit : now ≤ limit) :
    ∃ later ≤ limit, (rest.foldl Draft.step d).InPlace events limit later := by
  induction rest generalizing d now with
  | nil => exact ⟨now, hlimit, h⟩
  | cons e rest ih =>
    obtain ⟨hfirst, horder⟩ := List.pairwise_cons.mp horder
    obtain ⟨hstart, hstop, hle⟩ := hbounds e List.mem_cons_self
    have hstep := h.step (hmem e List.mem_cons_self) hstart hstop
    refine ih hstep (fun a ha => hmem a (List.mem_cons_of_mem e ha)) horder (fun a ha => ?_) hle
    exact ⟨hfirst a ha, (hbounds a (List.mem_cons_of_mem e ha)).2⟩

theorem stack_closeMany (stop : Nat) (d : Draft) :
    (d.closeMany stop d.stack.length).stack = [] := by
  have hnames := names_closeMany stop d.stack.length d
  rw [List.drop_of_length_le (by rw [names, List.length_map])] at hnames
  exact List.map_eq_nil_iff.mp hnames

-- Whatever is still open is closed at the end of the text.
theorem InPlace.finish (h : d.InPlace events limit now) (hlimit : now ≤ limit) :
    Laminar (Covers events limit) 0 limit (d.finish limit).roots := by
  have hclosed := h.closeMany hlimit (.inl rfl) d.stack.length
  rwa [InPlace, stack_closeMany] at hclosed

/-! ## Comments -/

theorem comments_add (e : Element) (d : Draft) : (d.add e).comments = d.comments := by
  unfold add
  split <;> rfl

theorem comments_closeTop (stop : Nat) (d : Draft) : (d.closeTop stop).comments = d.comments := by
  unfold closeTop
  split
  · rfl
  · exact comments_add _ _

theorem comments_closeMany (stop n : Nat) (d : Draft) :
    (d.closeMany stop n).comments = d.comments := by
  induction n generalizing d with
  | zero => rfl
  | succ n ih => rw [closeMany, ih, comments_closeTop]

def commentSpans (events : List Event) : List Span :=
  (events.filter (·.kind = .comment)).map fun e => ⟨e.start, e.stop⟩

-- Only a comment adds to the comments.
theorem comments_step (d : Draft) (e : Event) :
    (d.step e).comments.reverse = d.comments.reverse ++ commentSpans [e] := by
  unfold step commentSpans
  cases hkind : e.kind with
  | opened => simp [hkind]
  | selfClosed => simp [hkind, comments_add]
  | comment => simp [hkind]
  | closed =>
    simp only
    split
    · simp [hkind]
    · simp [hkind, comments_closeTop, comments_closeMany]

theorem comments_foldl (events : List Event) (d : Draft) :
    (events.foldl step d).comments.reverse = d.comments.reverse ++ commentSpans events := by
  induction events generalizing d with
  | nil => simp [commentSpans]
  | cons e events ih =>
    have hsplit : commentSpans (e :: events) = commentSpans [e] ++ commentSpans events := by
      rw [commentSpans, ← List.singleton_append, List.filter_append, List.map_append]
      rfl
    rw [List.foldl_cons, ih, comments_step, List.append_assoc, hsplit]

end Draft

/-! ## Outlines -/

-- The comments of an outline are those of its events.
theorem comments_of_parse {text : Text} {o : Outline}
    (ho : Outline.parse .unlimited text = .ok o) :
    o.comments = Draft.commentSpans (eventsFrom 0 text) := by
  rw [parse_unlimited] at ho
  obtain rfl := Except.ok.inj ho
  have hfold := Draft.comments_foldl (eventsFrom 0 text) .empty
  rw [Draft.finish, Draft.comments_closeMany, hfold]
  rfl

/-- The outline of a text is laminar, and each of its spans goes from a start tag to a place where
an element can end. -/
theorem laminar_of_parse {text : Text} {o : Outline} (ho : Outline.parse .unlimited text = .ok o) :
    Laminar (Covers (eventsFrom 0 text) text.length) 0 text.length o.roots := by
  rw [parse_unlimited] at ho
  obtain rfl := Except.ok.inj ho
  have hempty : Draft.InPlace (eventsFrom 0 text) text.length 0 .empty := .nil le_rfl
  have hbounds : ∀ e ∈ eventsFrom 0 text, 0 ≤ e.start ∧ e.start + e.name.length + 2 ≤ e.stop ∧
      e.stop ≤ text.length := by
    intro e he
    have := bounds_of_mem_eventsFrom he
    omega
  obtain ⟨now, hnow, hplace⟩ := hempty.foldl (fun e he => he) (pairwise_eventsFrom 0 text) hbounds
    (Nat.zero_le _)
  exact hplace.finish hnow

-- The tag that an element begins with is written there.
theorem IsStart.tag {text name : Text} {start : Nat} (h : IsStart (eventsFrom 0 text) name start) :
    text[start]? = some Byte.less ∧ takeName (text.drop (start + 1)) = name ∧ name ≠ [] := by
  obtain ⟨e, he, hkind, rfl, rfl⟩ := h
  obtain ⟨i, _, hi, hdrop, tail, rfl, hname, hne⟩ := name_of_mem_eventsFrom he hkind
  rw [Nat.zero_add] at hi
  subst hi
  refine ⟨?_, ?_, hne⟩
  · rw [← List.head?_drop, hdrop, List.head?_cons]
  · rw [← List.drop_drop, hdrop, List.drop_one, List.tail_cons, hname]

-- A start tag has its `<` and its name in the text.
theorem IsStart.bytes {text name : Text} {start : Nat}
    (h : IsStart (eventsFrom 0 text) name start) :
    text[start]? = some Byte.less ∧
      Span.bytes text ⟨start + 1, start + 1 + name.length⟩ = name := by
  obtain ⟨hless, hname, -⟩ := h.tag
  have hwritten := isPrefix_takeName (text.drop (start + 1))
  rw [hname] at hwritten
  rw [Span.bytes, Nat.add_sub_cancel_left]
  exact ⟨hless, (List.prefix_iff_eq_take.mp hwritten).symm⟩

/-- A span that ends where the other begins, or before. -/
def Span.Before (a b : Span) : Prop := a.stop ≤ b.start

def Span.Within (a b : Span) : Prop := b.start ≤ a.start ∧ a.stop ≤ b.stop

-- Of two events, one ends in front of the other.
theorem apart_of_mem_eventsFrom {offset : Nat} {text : Text} {a b : Event}
    (ha : a ∈ eventsFrom offset text) (hb : b ∈ eventsFrom offset text) (hne : a ≠ b) :
    a.stop ≤ b.start ∨ b.stop ≤ a.start := by
  have hpairwise :
      (eventsFrom offset text).Pairwise fun a b => a.stop ≤ b.start ∨ b.stop ≤ a.start :=
    (pairwise_eventsFrom offset text).imp Or.inl
  have hsymm : Std.Symm fun a b : Event => a.stop ≤ b.start ∨ b.stop ≤ a.start :=
    ⟨fun _ _ => Or.symm⟩
  exact hpairwise.forall ha hb hne

-- No comment stands across an edge of an element, since no event stands across one of another.
theorem Covers.within_or_before {text name : Text} {span comment : Span}
    (h : Covers (eventsFrom 0 text) text.length name span)
    (hcomment : comment ∈ Draft.commentSpans (eventsFrom 0 text)) :
    comment.Within span ∨ comment.Before span ∨ span.Before comment := by
  obtain ⟨c, hc, rfl⟩ := List.mem_map.mp hcomment
  obtain ⟨hc, hkind⟩ := List.mem_filter.mp hc
  simp only [decide_eq_true_eq] at hkind
  have hlimit := bounds_of_mem_eventsFrom hc
  have happart {e : Event} (he : e ∈ eventsFrom 0 text) (hne : e.kind ≠ .comment) :
      c.stop ≤ e.start ∨ e.stop ≤ c.start :=
    apart_of_mem_eventsFrom hc he fun heq => hne (heq ▸ hkind)
  obtain ⟨⟨a, ha, haKind, -, hstart⟩, hend, hcovers⟩ := h
  have hstartBounds := bounds_of_mem_eventsFrom ha
  unfold Span.Within Span.Before
  simp only
  rcases happart ha (by rcases haKind with h | h <;> rw [h] <;> decide) with hbefore | hbehind
  · exact .inr (.inl (by omega))
  rcases hend with hend | ⟨b, hb, hbKind, hend⟩
  · exact .inl (by omega)
  have hendBounds := bounds_of_mem_eventsFrom hb
  rcases happart hb (by rcases hbKind with h | h <;> rw [h] <;> decide) with hinside | hoff
  · exact .inl (by omega)
  · exact .inr (.inr (by omega))

/-- The outline of any text has the spans of its elements nested as the elements are: each covers a
start tag of its name and lies in the text, children begin behind the start of their parent and end
no later than it, and siblings follow one another. Comments follow one another too, and each lies in
the span of an element or apart from it. -/
theorem spans_laminar (text : Text) :
    ∃ o, Outline.parse .unlimited text = .ok o ∧
      (∀ parent e, o.Shows parent e →
        e.span.start + 1 + e.name.length < e.span.stop ∧ e.span.stop ≤ text.length ∧
        text[e.span.start]? = some Byte.less ∧
        Span.bytes text ⟨e.span.start + 1, e.span.start + 1 + e.name.length⟩ = e.name ∧
        (∀ child ∈ e.children,
          e.span.start < child.span.start ∧ child.span.stop ≤ e.span.stop) ∧
        e.children.Pairwise (fun a b => a.span.Before b.span) ∧
        ∀ c ∈ o.comments, c.Within e.span ∨ c.Before e.span ∨ e.span.Before c) ∧
      o.roots.Pairwise (fun a b => a.span.Before b.span) ∧
      (∀ c ∈ o.comments, c.start < c.stop ∧ c.stop ≤ text.length) ∧
      o.comments.Pairwise Span.Before := by
  have hparse := parse_unlimited text
  have hlaminar := laminar_of_parse hparse
  have hcomments := comments_of_parse hparse
  refine ⟨_, hparse, fun parent e he => ?_, hlaminar.pairwise, fun c hc => ?_, ?_⟩
  · obtain ⟨hspan, hchildren⟩ := hlaminar.of_nests he
    obtain ⟨hless, hname⟩ := hspan.isStart.bytes
    have hstop : e.span.stop ≤ text.length := by
      rcases hspan.isEnd with hend | ⟨a, ha, -, hend⟩
      · exact hend.le
      · have := bounds_of_mem_eventsFrom ha
        omega
    refine ⟨hspan.covers, hstop, hless, hname, fun child hchild => hchildren.bounds hchild,
      hchildren.pairwise, fun c hc => ?_⟩
    rw [hcomments] at hc
    exact hspan.within_or_before hc
  · rw [hcomments] at hc
    obtain ⟨a, ha, rfl⟩ := List.mem_map.mp hc
    have := bounds_of_mem_eventsFrom (List.mem_of_mem_filter ha)
    simp only
    omega
  · rw [hcomments]
    exact ((pairwise_eventsFrom 0 text).filter _).map _ fun a b h => h

end SvgAssist.Markup
