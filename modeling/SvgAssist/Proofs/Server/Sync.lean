import SvgAssist.Server.Session
import SvgAssist.Proofs.Server.Address
import Mathlib

/-!
# Keeping documents in step

An editor tells the server of every document that it opens, edits and closes. The edits of one
notification are made one after the other, and each is sent with the positions that it has in the
text before it. The server then holds what the editor shows (`documents_follow_editor`).
-/

namespace SvgAssist.Server

open Text

/-! ## The store -/

namespace Store

-- Closing one document leaves the others.
theorem get?_close (s : Store) (closed uri : Text) :
    (s.close closed).get? uri = if uri = closed then none else s.get? uri := by
  unfold close get?
  rw [List.find?_filter]
  by_cases huri : uri = closed
  · rw [if_pos huri, List.find?_eq_none]
    intro d _
    simp [huri]
  · rw [if_neg huri]
    congr 1
    funext d
    by_cases hd : d.uri = uri
    · simp [hd, huri]
    · simp [hd]

-- A document that is put replaces the one at its address and no other.
theorem get?_put (s : Store) (d : Document) (uri : Text) :
    (s.put d).get? uri = if uri = d.uri then some d else s.get? uri := by
  have hclose := get?_close s d.uri uri
  unfold put
  by_cases huri : uri = d.uri
  · rw [if_pos huri, get?, List.find?_cons_of_pos (by simp [huri])]
  · rw [if_neg huri] at hclose ⊢
    rw [get?, List.find?_cons_of_neg (by simpa using Ne.symm huri)]
    exact hclose

end Store

/-! ## Edits -/

/-- An edit as the author makes it: a new text for the whole document, or for what stands between
two offsets of it. -/
inductive Edit where
  | replace (text : Text)
  | splice (start stop : Nat) (text : Text)
deriving DecidableEq, Repr

/-- An offset where an author edits: between two characters, and not behind the carriage return that
ends a line. -/
structure Editable (content : Text) (o : Nat) : Prop where
  le_length : o ≤ content.length
  boundary : Boundary content o
  notAfterReturn : ¬ AfterReturn content o

theorem Editable.caret {content : Text} {o : Nat} (h : Editable content o) : Caret content o :=
  .of_boundary h.le_length h.boundary h.notAfterReturn

namespace Edit

def result (content : Text) : Edit → Text
  | replace text => text
  | splice start stop text => content.take start ++ text ++ content.drop stop

def change (content : Text) : Edit → Change
  | replace text => ⟨none, text⟩
  | splice start stop text => ⟨some ⟨place content start, place content stop⟩, text⟩

/-- An edit that an author can make, in a text whose positions fit into 32 bits. -/
def Possible (content : Text) : Edit → Prop
  | replace _ => True
  | splice start stop _ =>
    start ≤ stop ∧ Editable content start ∧ Editable content stop ∧ content.length < UInt32.size

def results (content : Text) (edits : List Edit) : Text := edits.foldl result content

/-- What the editor sends for several edits: each with its positions in the text that the edits
before it left. -/
def changes (content : Text) : List Edit → List Change
  | [] => []
  | e :: es => e.change content :: changes (e.result content) es

def AllPossible (content : Text) : List Edit → Prop
  | [] => True
  | e :: es => e.Possible content ∧ AllPossible (e.result content) es

variable {content : Text}

-- The server makes an edit as the author made it.
theorem apply_change {e : Edit} (h : e.Possible content) :
    Change.apply content (e.change content) = e.result content := by
  cases e with
  | replace text => rfl
  | splice start stop text =>
    obtain ⟨hle, hstart, hstop, hlen⟩ := h
    -- Both ends come back as the offsets that they were sent for, in their order.
    have hfirst := (place_addresses hlen start).offset_ofClient hstart.caret
    have hlast := (place_addresses hlen stop).offset_ofClient hstop.caret
    simp only [Change.apply, change, hfirst, hlast]
    rw [Nat.min_eq_left hle, Nat.max_eq_right hle, result]

-- By induction on the edits, each made in the text that those before it left.
theorem applyAll_changes {edits : List Edit} (h : AllPossible content edits) :
    Change.applyAll content (changes content edits) = results content edits := by
  induction edits generalizing content with
  | nil => rfl
  | cons e es ih =>
    -- The positions of the later edits are those in `e.result content`, which the server now holds.
    have hrest := ih h.2
    rw [Change.applyAll] at hrest ⊢
    rw [changes, List.foldl_cons, apply_change h.1, hrest]
    rfl

end Edit

/-! ## Editors -/

structure Shown where
  version : Int
  text : Text
deriving DecidableEq, Repr

abbrev Editor := Text → Option Shown

inductive Action where
  | opens (uri : Text) (version : Int) (text : Text)
  | edits (uri : Text) (version : Int) (edits : List Edit)
  | closes (uri : Text)

namespace Action

def uri : Action → Text
  | opens uri _ _ => uri
  | edits uri _ _ => uri
  | closes uri => uri

def after (editor : Editor) : Action → Editor
  | opens uri version text => Function.update editor uri (some ⟨version, text⟩)
  | edits uri version es =>
    Function.update editor uri ((editor uri).map fun d => ⟨version, Edit.results d.text es⟩)
  | closes uri => Function.update editor uri none

def notification (editor : Editor) : Action → Request
  | opens uri version text => .didOpen ⟨uri, version, text⟩
  | edits uri version es =>
    .didChange uri version (((editor uri).map fun d => Edit.changes d.text es).getD [])
  | closes uri => .didClose uri

/-- Only open documents are edited. -/
def Possible (editor : Editor) : Action → Prop
  | edits uri _ es => ∃ d, editor uri = some d ∧ Edit.AllPossible d.text es
  | opens _ _ _ | closes _ => True

end Action

namespace Editor

def empty : Editor := fun _ => none

def afterAll (editor : Editor) (actions : List Action) : Editor := actions.foldl Action.after editor

def AllPossible (editor : Editor) : List Action → Prop
  | [] => True
  | a :: more => a.Possible editor ∧ AllPossible (a.after editor) more

end Editor

def Session.afterAll (s : Session) (editor : Editor) : List Action → Session
  | [] => s
  | a :: more => Session.afterAll (s.serve (a.notification editor)).1 (a.after editor) more

-- A run that is possible can be cut in two.
theorem Editor.allPossible_append {editor : Editor} {before after : List Action} :
    editor.AllPossible (before ++ after) ↔
      editor.AllPossible before ∧ (editor.afterAll before).AllPossible after := by
  induction before generalizing editor with
  | nil => exact ⟨fun h => ⟨trivial, h⟩, And.right⟩
  | cons a more ih => exact (and_congr_right fun _ => ih).trans and_assoc.symm

/-- The server's documents are those that the editor shows. -/
def Store.Follows (s : Store) (editor : Editor) : Prop :=
  ∀ uri, s.get? uri = (editor uri).map fun d => ⟨uri, d.version, d.text⟩

/-! ## Notifications -/

-- A notification leaves the documents alone that it is not about.
theorem Session.get?_serve_of_ne (s : Session) (editor : Editor) {a : Action} {uri : Text}
    (h : uri ≠ a.uri) :
    (s.serve (a.notification editor)).1.documents.get? uri = s.documents.get? uri := by
  cases a with
  | opens opened version text => exact (Store.get?_put s.documents _ uri).trans (if_neg h)
  | edits edited version es => exact (Store.get?_put s.documents _ uri).trans (if_neg h)
  | closes closed => exact (Store.get?_close s.documents closed uri).trans (if_neg h)

-- An action is about one document.
theorem Action.after_of_ne (editor : Editor) {a : Action} {uri : Text} (h : uri ≠ a.uri) :
    a.after editor uri = editor uri := by
  cases a with
  | opens opened version text => exact Function.update_of_ne h _ _
  | edits edited version es => exact Function.update_of_ne h _ _
  | closes closed => exact Function.update_of_ne h _ _

-- The document that a notification is about becomes what the editor shows.
theorem Session.get?_serve_self {s : Session} {editor : Editor}
    (hfollows : s.documents.Follows editor) {a : Action} (ha : a.Possible editor) :
    (s.serve (a.notification editor)).1.documents.get? a.uri =
      (a.after editor a.uri).map fun d => ⟨a.uri, d.version, d.text⟩ := by
  cases a with
  | opens uri version text =>
    simp only [Action.uri, Action.after, Function.update_self, Option.map_some]
    exact (Store.get?_put s.documents _ uri).trans (if_pos rfl)
  | edits uri version es =>
    obtain ⟨d, hd, hes⟩ := ha
    -- The text that the server edits is the one that the author saw.
    have htext : s.textOf uri = d.text := by
      rw [textOf, hfollows uri, hd]
      rfl
    simp only [Action.uri, Action.after, Function.update_self, hd, Option.map_some]
    refine (Store.get?_put s.documents _ uri).trans ((if_pos rfl).trans ?_)
    rw [hd, htext, Option.map_some, Option.getD_some, Edit.applyAll_changes hes]
  | closes uri =>
    simp only [Action.uri, Action.after, Function.update_self, Option.map_none]
    exact (Store.get?_close s.documents uri uri).trans (if_pos rfl)

-- One action and its notification keep the documents of the server those of the editor.
theorem Session.follows_serve {s : Session} {editor : Editor}
    (hfollows : s.documents.Follows editor) {a : Action} (ha : a.Possible editor) :
    (s.serve (a.notification editor)).1.documents.Follows (a.after editor) := by
  intro uri
  by_cases huri : uri = a.uri
  · subst huri
    exact get?_serve_self hfollows ha
  · rw [get?_serve_of_ne s editor huri, Action.after_of_ne editor huri]
    exact hfollows uri

-- A run of notifications keeps the server's documents those that the editor shows.
theorem Session.follows_afterAll {s : Session} {editor : Editor}
    (hfollows : s.documents.Follows editor) {actions : List Action}
    (h : editor.AllPossible actions) :
    (s.afterAll editor actions).documents.Follows (editor.afterAll actions) := by
  induction actions generalizing s editor with
  | nil => exact hfollows
  | cons a more ih => exact ih (follows_serve hfollows h.1) h.2

/-- Through any run of actions, the server holds after each notification what the editor shows:
every open document with its text and version, and no other document. A notification changes no
document that it is not about. -/
theorem documents_follow_editor (catalog : Grammar.Catalog) (budget : Markup.Budget)
    {run : List Action} (hpossible : Editor.empty.AllPossible run) {before after : List Action}
    {a : Action} (hrun : run = before ++ a :: after) :
    let editor := Editor.empty.afterAll before
    let earlier := (Session.start catalog budget).afterAll .empty before
    let later := (earlier.serve (a.notification editor)).1
    (∀ uri, later.documents.get? uri =
      (a.after editor uri).map fun d => ⟨uri, d.version, d.text⟩) ∧
    ∀ uri, uri ≠ a.uri → later.documents.get? uri = earlier.documents.get? uri := by
  intro editor earlier later
  rw [hrun] at hpossible
  obtain ⟨hbefore, ha, -⟩ := Editor.allPossible_append.mp hpossible
  have hstart : (Session.start catalog budget).documents.Follows .empty := fun uri => rfl
  have hearlier : earlier.documents.Follows editor := Session.follows_afterAll hstart hbefore
  exact ⟨Session.follows_serve hearlier ha, fun uri huri => earlier.get?_serve_of_ne editor huri⟩

/-- The second edit stands behind what the first one put in, two UTF-16 units and four bytes. -/
theorem documents_follow_editor_surrogates :
    let opened := Action.opens (utf8 "u") 1 (utf8 "é\r\nz")
    let edited := Action.edits (utf8 "u") 2 [.splice 4 5 (utf8 "𝄞"), .splice 8 8 (utf8 "!")]
    let editor := Editor.empty.afterAll [opened]
    let earlier := (Session.start ⟨[], []⟩ .unlimited).afterAll .empty [opened]
    Editor.empty.AllPossible [opened, edited] ∧
      (earlier.serve (edited.notification editor)).1.documents.get? (utf8 "u") =
        some ⟨utf8 "u", 2, utf8 "é\r\n𝄞!"⟩ := by
  intro opened edited editor earlier
  have hfirst : (Edit.splice 4 5 (utf8 "𝄞")).Possible (utf8 "é\r\nz") :=
    ⟨by decide, ⟨by decide, ⟨3, by cbv⟩, by decide⟩, ⟨by decide, ⟨4, by cbv⟩, by decide⟩, by decide⟩
  have hsecond : (Edit.splice 8 8 (utf8 "!")).Possible (utf8 "é\r\n𝄞") :=
    ⟨by decide, ⟨by decide, ⟨4, by cbv⟩, by decide⟩, ⟨by decide, ⟨4, by cbv⟩, by decide⟩, by decide⟩
  have hpossible : Editor.empty.AllPossible [opened, edited] :=
    ⟨trivial, ⟨⟨1, utf8 "é\r\nz"⟩, by decide, hfirst, hsecond, trivial⟩, trivial⟩
  have hrun : [opened, edited] = [opened] ++ edited :: [] := rfl
  have hfollows := (documents_follow_editor ⟨[], []⟩ .unlimited hpossible hrun).1 (utf8 "u")
  exact ⟨hpossible, hfollows.trans (by decide)⟩

end SvgAssist.Server
