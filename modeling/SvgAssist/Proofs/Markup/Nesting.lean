import SvgAssist.Markup.Enclosing
import SvgAssist.Markup.Outline
import SvgAssist.Proofs.Markup.Events
import Mathlib.Data.List.Induction

/-!
# Nesting

The outline of a text and the scan for what encloses a cursor fold the same events, one into a tree
and one into a stack of names. Every element of the tree therefore stands below the element whose
name is on top of that stack when its tag begins (`begins_of_nests`), and a scan of the text up to
there, or through the element's name, ends with that stack (`parentElement_take`).
-/

namespace SvgAssist.Markup

/-! ## Trees -/

/-- `e` is a node of some trees, right below a node with the name `parent` or below none. The trees
themselves stand below `above`. -/
inductive Nests {α : Type} (name : α → Text) (children : α → List α) (e : α)
    (parent : Option Text) : (above : Option Text) → List α → Prop
  | here {es : List α} : e ∈ es → Nests name children e parent parent es
  | inside {above : Option Text} {es : List α} {outer : α} : outer ∈ es →
      Nests name children e parent (some (name outer)) (children outer) →
      Nests name children e parent above es

-- Trees that are made over node by node keep who is whose parent.
theorem nests_map_iff {α β : Type} {f : α → β} {name : α → Text} {children : α → List α}
    {name' : β → Text} {children' : β → List β} (hname : ∀ a, name' (f a) = name a)
    (hchildren : ∀ a, children' (f a) = (children a).map f) {y : β} {parent above : Option Text}
    {es : List α} :
    Nests name' children' y parent above (es.map f) ↔
      ∃ e, Nests name children e parent above es ∧ f e = y := by
  constructor
  -- Each level of the image comes from the same level of the trees.
  · intro h
    generalize hnodes : es.map f = nodes at h
    induction h generalizing es with
    | here hmem =>
      subst hnodes
      obtain ⟨e, he, rfl⟩ := List.mem_map.mp hmem
      exact ⟨e, .here he, rfl⟩
    | inside hmem _ ih =>
      subst hnodes
      obtain ⟨outer, houter, rfl⟩ := List.mem_map.mp hmem
      obtain ⟨e, he, hy⟩ := ih (hchildren outer).symm
      rw [hname] at he
      exact ⟨e, .inside houter he, hy⟩
  · rintro ⟨e, h, rfl⟩
    induction h with
    | here hmem => exact .here (List.mem_map_of_mem hmem)
    | inside hmem _ ih =>
      rw [← hname, ← hchildren] at ih
      exact .inside (List.mem_map_of_mem hmem) ih

/-- An element of an outline, and the name of its parent. -/
abbrev Outline.Shows (o : Outline) (parent : Option Text) (e : Element) : Prop :=
  Nests Element.name Element.children e parent none o.roots

/-! ## The events behind an element -/

/-- A start tag of this name begins at `start`, and the innermost element that is open there is
`parent`. -/
def Begins (events : List Event) (parent : Option Text) (name : Text) (start : Nat) : Prop :=
  ∃ before e after, events = before ++ e :: after ∧ (e.kind = .opened ∨ e.kind = .selfClosed) ∧
    e.name = name ∧ e.start = start ∧ (before.foldl nest []).head? = parent

-- Later events change nothing about where a tag began.
theorem Begins.append {events : List Event} {parent : Option Text} {name : Text} {start : Nat}
    (h : Begins events parent name start) (more : List Event) :
    Begins (events ++ more) parent name start := by
  obtain ⟨before, e, after, rfl, hkind, hname, hstart, hparent⟩ := h
  refine ⟨before, e, after ++ more, ?_, hkind, hname, hstart, hparent⟩
  rw [List.append_assoc, List.cons_append]

-- The tag that comes last begins among what the events before it have left open.
theorem begins_last (events : List Event) {e : Event}
    (hkind : e.kind = .opened ∨ e.kind = .selfClosed) :
    Begins (events ++ [e]) (events.foldl nest []).head? e.name e.start :=
  ⟨events, e, [], rfl, hkind, rfl, rfl, rfl⟩

def AllBegin (events : List Event) (above : Option Text) (es : List Element) : Prop :=
  ∀ parent e, Nests Element.name Element.children e parent above es →
    Begins events parent e.name e.span.start

section AllBegin

variable {events : List Event} {above : Option Text} {e : Element} {es : List Element}

theorem AllBegin.append (h : AllBegin events above es) (more : List Event) :
    AllBegin (events ++ more) above es :=
  fun parent e hnest => (h parent e hnest).append more

theorem allBegin_nil : AllBegin events above [] := by
  intro parent e hnest
  cases hnest with
  | here hmem => simp at hmem
  | inside hmem => simp at hmem

-- An element in front of others needs its own start and those of its children.
theorem AllBegin.cons (he : Begins events above e.name e.span.start)
    (hchildren : AllBegin events (some e.name) e.children) (hes : AllBegin events above es) :
    AllBegin events above (e :: es) := by
  intro parent inner hnest
  cases hnest with
  | here hmem =>
    rcases List.mem_cons.mp hmem with rfl | hmem
    · exact he
    · exact hes _ _ (.here hmem)
  | inside hmem hbelow =>
    rcases List.mem_cons.mp hmem with rfl | hmem
    · exact hchildren _ _ hbelow
    · exact hes _ _ (.inside hmem hbelow)

theorem AllBegin.reverse (h : AllBegin events above es) : AllBegin events above es.reverse := by
  intro parent e hnest
  cases hnest with
  | here hmem => exact h _ _ (.here (List.mem_reverse.mp hmem))
  | inside hmem hbelow => exact h _ _ (.inside (List.mem_reverse.mp hmem) hbelow)

end AllBegin

/-! ## Drafts -/

def names (stack : List OpenElement) : List Text := stack.map (·.name)

/-- Each open element begins inside of the one below it in the stack, and its children inside of
it. -/
def StackBegins (events : List Event) : List OpenElement → Prop
  | [] => True
  | top :: below =>
    Begins events (names below).head? top.name top.start ∧
      AllBegin events (some top.name) top.children ∧ StackBegins events below

-- What each level says of its element stays true as events are added.
theorem StackBegins.append {events : List Event} {stack : List OpenElement}
    (h : StackBegins events stack) (more : List Event) : StackBegins (events ++ more) stack := by
  induction stack with
  | nil => trivial
  | cons top below ih =>
    obtain ⟨htop, hchildren, hbelow⟩ := h
    exact ⟨htop.append more, hchildren.append more, ih hbelow⟩

structure Draft.Sound (events : List Event) (d : Draft) : Prop where
  stack : StackBegins events d.stack
  roots : AllBegin events none d.roots

namespace Draft

variable {events : List Event} {d : Draft}

theorem Sound.append (h : d.Sound events) (more : List Event) : d.Sound (events ++ more) :=
  ⟨h.stack.append more, h.roots.append more⟩

theorem names_add (e : Element) (d : Draft) : names (d.add e).stack = names d.stack := by
  unfold add
  split
  · rfl
  · rename_i top below hstack
    rw [hstack]
    rfl

-- Adding an element keeps the draft sound if it began inside of the innermost open one.
theorem Sound.add {e : Element} (h : d.Sound events)
    (he : Begins events (names d.stack).head? e.name e.span.start)
    (hchildren : AllBegin events (some e.name) e.children) : (d.add e).Sound events := by
  unfold Draft.add
  split
  · rename_i hstack
    rw [hstack] at he
    exact ⟨h.stack, .cons he hchildren h.roots⟩
  · rename_i top below hstack
    rw [hstack] at he
    obtain ⟨htop, hrest, hbelow⟩ := hstack ▸ h.stack
    exact ⟨⟨htop, .cons he hchildren hrest, hbelow⟩, h.roots⟩

theorem names_closeTop (stop : Nat) (d : Draft) :
    names (d.closeTop stop).stack = (names d.stack).tail := by
  unfold closeTop
  split
  · rename_i hstack
    rw [hstack]
    rfl
  · rename_i top below hstack
    rw [hstack, names_add]
    rfl

-- Closing one adds it to the one below, inside of which it began.
theorem Sound.closeTop (h : d.Sound events) (stop : Nat) : (d.closeTop stop).Sound events := by
  unfold Draft.closeTop
  split
  · exact h
  · rename_i top below hstack
    obtain ⟨htop, hchildren, hbelow⟩ := hstack ▸ h.stack
    have hrest : Sound events { d with stack := below } := ⟨hbelow, h.roots⟩
    exact hrest.add htop hchildren.reverse

theorem names_closeMany (stop n : Nat) (d : Draft) :
    names (d.closeMany stop n).stack = (names d.stack).drop n := by
  induction n generalizing d with
  | zero => rfl
  | succ n ih => rw [closeMany, ih, names_closeTop, ← List.drop_one, List.drop_drop, Nat.add_comm]

-- And so does closing several, the innermost first.
theorem Sound.closeMany (h : d.Sound events) (stop n : Nat) :
    (d.closeMany stop n).Sound events := by
  induction n generalizing d with
  | zero => exact h
  | succ n ih => exact ih (h.closeTop stop)

-- A draft and the names of the open elements go through an event side by side.
theorem names_step (d : Draft) (e : Event) : names (d.step e).stack = nest (names d.stack) e := by
  unfold step nest
  cases e.kind with
  | opened => rfl
  | selfClosed => exact names_add _ d
  | comment => rfl
  | closed =>
    have hfind : (names d.stack).findIdx? (· == e.name) = d.stack.findIdx? (·.name == e.name) :=
      List.findIdx?_map
    simp only [hfind]
    cases d.stack.findIdx? (·.name == e.name) with
    | none => rfl
    | some inner =>
      simp only
      rw [names_closeTop, names_closeMany, ← List.drop_one, List.drop_drop]

/-- One event keeps a draft sound, as long as the stack has the names that the events have left
open. -/
theorem Sound.step (h : d.Sound events) (hnames : names d.stack = events.foldl nest [])
    (e : Event) : (d.step e).Sound (events ++ [e]) := by
  unfold Draft.step
  -- What was sound of the earlier events is so of the longer list, of which `e` is the last.
  have hlater := h.append [e]
  have hbegins := begins_last events (e := e)
  rw [← hnames] at hbegins
  cases hkind : e.kind with
  | opened => exact ⟨⟨hbegins (.inl hkind), allBegin_nil, hlater.stack⟩, hlater.roots⟩
  | selfClosed => exact hlater.add (hbegins (.inr hkind)) allBegin_nil
  | comment => exact ⟨hlater.stack, hlater.roots⟩
  | closed =>
    simp only
    split
    · exact hlater
    · exact (hlater.closeMany _ _).closeTop _

-- A draft after some events has the open elements that the events leave, and tells of each element
-- where it began.
theorem sound_foldl (events : List Event) :
    names (events.foldl step empty).stack = events.foldl nest [] ∧
      (events.foldl step empty).Sound events := by
  -- From the last event back: the invariant speaks of the events in front of each start tag.
  induction events using List.reverseRecOn with
  | nil => exact ⟨rfl, trivial, allBegin_nil⟩
  | append_singleton events e ih =>
    obtain ⟨hnames, hsound⟩ := ih
    rw [List.foldl_append, List.foldl_append]
    exact ⟨by rw [List.foldl_cons, List.foldl_nil, names_step, hnames]; rfl,
      hsound.step hnames e⟩

end Draft

/-! ## Outlines -/

-- Without a limit the outline is a fold over the events.
theorem parse_unlimited (text : Text) :
    Outline.parse .unlimited text =
      .ok (((eventsFrom 0 text).foldl Draft.step .empty).finish text.length) := by
  rw [Outline.parse, scan_unlimited]
  rfl

-- Each element of an outline begins where its parent is the innermost open element.
theorem begins_of_nests {text : Text} {o : Outline} {parent : Option Text} {e : Element}
    (ho : Outline.parse .unlimited text = .ok o) (he : o.Shows parent e) :
    Begins (eventsFrom 0 text) parent e.name e.span.start := by
  rw [parse_unlimited] at ho
  obtain rfl := Except.ok.inj ho
  have hsound := (Draft.sound_foldl (eventsFrom 0 text)).2
  exact (hsound.closeMany _ _).roots.reverse _ _ he

-- Between two start tags and through the name of the second, a cut keeps the events in front of it.
theorem filter_stop_le {text : Text} {before after : List Event} {e : Event}
    (hevents : eventsFrom 0 text = before ++ e :: after) {c : Nat} (hlo : e.start ≤ c)
    (hhi : c ≤ e.start + 1 + e.name.length) :
    (eventsFrom 0 text).filter (fun e => e.stop ≤ c) = before := by
  have horder := pairwise_eventsFrom 0 text
  have hbounds (a : Event) (ha : a ∈ eventsFrom 0 text) := bounds_of_mem_eventsFrom ha
  rw [hevents] at horder hbounds ⊢
  obtain ⟨-, htail, hcross⟩ := List.pairwise_append.mp horder
  have hstop := hbounds e (by simp)
  -- Everything in front of `e` ends where it begins or earlier.
  have hbefore : before.filter (fun e => e.stop ≤ c) = before := by
    rw [List.filter_eq_self]
    intro a ha
    have := hcross a ha e List.mem_cons_self
    simp only [decide_eq_true_eq]
    omega
  -- Its own `>` lies behind its name, and all else behind that.
  have hafter : (e :: after).filter (fun e => e.stop ≤ c) = [] := by
    rw [List.filter_eq_nil_iff]
    intro a ha
    rw [decide_eq_true_eq]
    rcases List.mem_cons.mp ha with rfl | ha
    · omega
    · have := (List.pairwise_cons.mp htail).1 a ha
      have := hbounds a (by simp [ha])
      omega
  rw [List.filter_append, hbefore, hafter, List.append_nil]

-- An event adds no name but its own.
theorem mem_nest {stack : List Text} {e : Event} {name : Text} (h : name ∈ nest stack e) :
    name ∈ stack ∨ e.kind = .opened ∧ e.name = name := by
  unfold nest at h
  cases hkind : e.kind with
  | opened =>
    simp only [hkind, List.mem_cons] at h
    exact h.symm.imp_right fun heq => ⟨rfl, heq.symm⟩
  | selfClosed => exact .inl (by simpa only [hkind] using h)
  | comment => exact .inl (by simpa only [hkind] using h)
  | closed =>
    simp only [hkind] at h
    split at h
    · exact .inl h
    · exact .inl (List.mem_of_mem_drop h)

-- What is open was opened by a start tag.
theorem exists_opened_of_mem_foldl {events : List Event} {name : Text}
    (h : name ∈ events.foldl nest []) : ∃ e ∈ events, e.kind = .opened ∧ e.name = name := by
  induction events using List.reverseRecOn with
  | nil => simp at h
  | append_singleton events e ih =>
    rw [List.foldl_append, List.foldl_cons, List.foldl_nil] at h
    rcases mem_nest h with h | h
    · obtain ⟨a, ha, hopened⟩ := ih h
      exact ⟨a, List.mem_append_left _ ha, hopened⟩
    · exact ⟨e, by simp, h⟩

-- The innermost open element is the head of what the events have left open.
theorem parentElement_unlimited (text : Text) :
    parentElement .unlimited text = .ok ((eventsFrom 0 text).foldl nest []).head? := by
  rw [parentElement, scan_unlimited]
  rfl

/-- At the start of a tag, and anywhere in its name, the innermost open element is the parent that
the outline shows. -/
theorem parentElement_take {text : Text} {parent : Option Text} {name : Text} {start : Nat}
    (h : Begins (eventsFrom 0 text) parent name start) {c : Nat} (hlo : start ≤ c)
    (hhi : c ≤ start + 1 + name.length) : parentElement .unlimited (text.take c) = .ok parent := by
  obtain ⟨before, e, after, hevents, -, rfl, rfl, hparent⟩ := h
  rw [parentElement_unlimited, eventsFrom_take, Nat.zero_add, filter_stop_le hevents hlo hhi,
    hparent]

end SvgAssist.Markup
