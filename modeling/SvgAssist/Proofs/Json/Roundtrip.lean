import SvgAssist.Proofs.Json.Strings

/-!
# JSON there and back

A tree that is written on one line is read back, with its texts repaired (`read_compact`). Numbers
are left out: a tree may have literals for them that are none.
-/

namespace SvgAssist.Json

mutual

def repaired : Json → Json
  | .string text => .string text.repaired
  | .array items => .array (repairedItems items)
  | .object members => .object (repairedMembers members)
  | .null => .null
  | .bool value => .bool value
  | .number literal => .number literal

def repairedItems : List Json → List Json
  | [] => []
  | item :: items => repaired item :: repairedItems items

def repairedMembers : List (Text × Json) → List (Text × Json)
  | [] => []
  | (key, value) :: members => (key.repaired, repaired value) :: repairedMembers members

end

theorem repairedItems_eq_map (items : List Json) : repairedItems items = items.map repaired := by
  induction items with
  | nil => rfl
  | cons item items ih => rw [repairedItems, ih, List.map_cons]

theorem repairedMembers_eq_map (members : List (Text × Json)) : repairedMembers members =
    members.map fun member => (member.1.repaired, member.2.repaired) := by
  induction members with
  | nil => rfl
  | cons member members ih => rw [repairedMembers, ih, List.map_cons]

/-- A tree without numbers, in which no more than `depth` containers are inside of each other. -/
inductive Shallow : Nat → Json → Prop
  | null (depth : Nat) : Shallow depth .null
  | bool (depth : Nat) (value : Bool) : Shallow depth (.bool value)
  | string (depth : Nat) (text : Text) : Shallow depth (.string text)
  | array {depth : Nat} {items : List Json} (h : ∀ item ∈ items, Shallow depth item) :
    Shallow (depth + 1) (.array items)
  | object {depth : Nat} {members : List (Text × Json)}
    (h : ∀ member ∈ members, Shallow depth member.2) : Shallow (depth + 1) (.object members)

/-! ## Steps of reading -/

/-- What may come next, the open containers, and what is left to read. -/
abbrev Stage := Expect × List Frame × Text

def readStage (offset : Nat) (stage : Stage) : Except SyntaxError Json :=
  readFrom offset stage.1 stage.2.1 stage.2.2

/-- Reading goes from one stage to another, wherever in a text it is. -/
def LeadsTo (a b : Stage) : Prop :=
  ∀ offset, ∃ later, readStage offset a = readStage later b

-- Reading in two stages.
theorem LeadsTo.trans {a b c : Stage} (hab : LeadsTo a b) (hbc : LeadsTo b c) : LeadsTo a c := by
  intro offset
  obtain ⟨middle, hmiddle⟩ := hab offset
  obtain ⟨later, hlater⟩ := hbc middle
  exact ⟨later, hmiddle.trans hlater⟩

-- A single token leads on if it is read alike at every offset.
theorem leadsTo_token {expect next : Expect} {frames inside : List Frame} {b : UInt8}
    {rest tail : Text} (size : Nat) (htail : rest.drop (size - 1) = tail)
    (h : ∀ offset, readToken offset expect frames b rest = .ok (next, inside, size)) :
    LeadsTo (expect, frames, b :: rest) (next, inside, tail) := by
  subst htail
  intro offset
  refine ⟨offset + size, ?_⟩
  simp only [readStage]
  rw [readFrom, h offset]

def behind (value : Json) (frames : List Frame) (tail : Text) : Stage :=
  ((finish value frames).1, (finish value frames).2, tail)

-- A text that was written is read back repaired.
theorem leadsTo_string (text : Text) (frames : List Frame) (tail : Text) :
    LeadsTo (.value, frames, quoted text ++ tail) (behind (.string text.repaired) frames tail) := by
  obtain ⟨contents, hspells, hquoted⟩ := quoted_spells text
  rw [hquoted]
  refine leadsTo_token (contents.length + 2) (by simp [List.drop_append]) fun offset => ?_
  change (shift offset (stringSize 1 (contents ++ Byte.doubleQuote :: tail))).bind _ = _
  simp only [hspells.stringSize_closed, shift, Except.mapError, Except.bind, Nat.add_sub_cancel,
    List.take_left, hspells.unescape_eq]
  rfl

theorem leadsTo_key (key : Text) (members : List (Text × Json)) (frames : List Frame)
    (tail : Text) : LeadsTo (.key, .object members :: frames, quoted key ++ tail)
      (.colon, .member members key.repaired :: frames, tail) := by
  obtain ⟨contents, hspells, hquoted⟩ := quoted_spells key
  rw [hquoted]
  refine leadsTo_token (contents.length + 2) (by simp [List.drop_append]) fun offset => ?_
  change (shift offset (stringSize 1 (contents ++ Byte.doubleQuote :: tail))).bind _ = _
  simp only [hspells.stringSize_closed, shift, Except.mapError, Except.bind, Nat.add_sub_cancel,
    List.take_left, hspells.unescape_eq]
  rfl

theorem leadsTo_null (frames : List Frame) (tail : Text) :
    LeadsTo (.value, frames, compactOnto tail .null) (behind .null frames tail) :=
  leadsTo_token 4 rfl fun _ => rfl

theorem leadsTo_bool (value : Bool) (frames : List Frame) (tail : Text) : LeadsTo
    (.value, frames, compactOnto tail (.bool value)) (behind (.bool value) frames tail) := by
  cases value with
  | false => exact leadsTo_token 5 rfl fun _ => rfl
  | true => exact leadsTo_token 4 rfl fun _ => rfl

-- An array may be opened as long as not too many containers are open.
theorem leadsTo_openArray {frames : List Frame} (hdepth : frames.length < maxDepth)
    (tail : Text) :
    LeadsTo (.value, frames, 0x5b :: tail) (.itemOrClose, .array [] :: frames, tail) :=
  leadsTo_token 1 rfl fun _ => if_pos hdepth

theorem leadsTo_openObject {frames : List Frame} (hdepth : frames.length < maxDepth)
    (tail : Text) :
    LeadsTo (.value, frames, 0x7b :: tail) (.keyOrClose, .object [] :: frames, tail) :=
  leadsTo_token 1 rfl fun _ => if_pos hdepth

-- The first item, and the first key, stand where the container might be closed instead.

-- What is read alike in two states may be read in either.
theorem leadsTo_same {expect next : Expect} {frames : List Frame} {b : UInt8} {rest : Text}
    (h : ∀ offset, readToken offset expect frames b rest = readToken offset next frames b rest) :
    LeadsTo (expect, frames, b :: rest) (next, frames, b :: rest) := by
  intro offset
  refine ⟨offset, ?_⟩
  simp only [readStage]
  rw [readFrom, readFrom, h]

-- In front of its first item an array may also be closed, but no item begins like that.
theorem leadsTo_firstItem {b : UInt8} (hspace : isSpace b = false) (hclose : b ≠ 0x5d)
    (frames : List Frame) (rest : Text) :
    LeadsTo (.itemOrClose, frames, b :: rest) (.value, frames, b :: rest) :=
  leadsTo_same fun offset => by
    simp only [readToken, hspace, hclose, Bool.false_eq_true, if_false]

-- A key begins with a quote, so the object is not closed.
theorem leadsTo_firstKey (key : Text) (frames : List Frame) (tail : Text) :
    LeadsTo (.keyOrClose, frames, quoted key ++ tail) (.key, frames, quoted key ++ tail) := by
  obtain ⟨contents, -, hquoted⟩ := quoted_spells key
  rw [hquoted]
  exact leadsTo_same fun _ => rfl

-- What is written for a tree begins neither with a blank nor with a closing bracket.
theorem exists_compactOnto {depth : Nat} {v : Json} (h : Shallow depth v) (tail : Text) :
    ∃ b rest, compactOnto tail v = b :: rest ∧ isSpace b = false ∧ b ≠ 0x5d := by
  cases h with
  | null => exact ⟨_, _, rfl, by decide, by decide⟩
  | bool depth value => cases value <;> exact ⟨_, _, rfl, by decide, by decide⟩
  | string depth text =>
    obtain ⟨contents, -, hquoted⟩ := quoted_spells text
    exact ⟨_, _, hquoted tail, by decide, by decide⟩
  | array h => exact ⟨_, _, rfl, by decide, by decide⟩
  | object h => exact ⟨_, _, rfl, by decide, by decide⟩

theorem exists_itemsOnto (item : Json) (items : List Json) (tail : Text) :
    ∃ rest, itemsOnto tail (item :: items) = compactOnto rest item := by
  cases items <;> exact ⟨_, rfl⟩

theorem exists_membersOnto (member : Text × Json) (members : List (Text × Json)) (tail : Text) :
    ∃ rest, membersOnto tail (member :: members) = quoted member.1 ++ rest := by
  cases members <;> exact ⟨_, rfl⟩

/-! ## Trees -/

/-- A value is read back in front of everything, inside of the containers that are open. -/
def ReadsBack (depth : Nat) (v : Json) : Prop :=
  ∀ (frames : List Frame) (tail : Text), frames.length + depth ≤ maxDepth →
    LeadsTo (.value, frames, compactOnto tail v) (behind v.repaired frames tail)

-- Items that are each read back are read back one after the other, by induction on them.
theorem leadsTo_items {depth : Nat} {items : List Json} (hne : items ≠ [])
    (h : ∀ item ∈ items, ReadsBack depth item) (done : List Json) (frames : List Frame)
    (tail : Text) (hdepth : frames.length + (depth + 1) ≤ maxDepth) :
    LeadsTo (.value, .array done :: frames, itemsOnto (0x5d :: tail) items)
      (behind (.array (done.reverse ++ repairedItems items)) frames tail) := by
  induction items generalizing done with
  | nil => exact absurd rfl hne
  | cons item items ih =>
    have hitem (rest : Text) := h item (List.mem_cons_self ..) (.array done :: frames) rest
      (by rw [List.length_cons]; omega)
    cases items with
    | nil =>
      have hclose : LeadsTo (behind item.repaired (.array done :: frames) (0x5d :: tail))
          (behind (.array (item.repaired :: done).reverse) frames tail) :=
        leadsTo_token 1 rfl fun _ => rfl
      rw [List.reverse_cons] at hclose
      exact (hitem _).trans hclose
    | cons next items =>
      have hcomma : LeadsTo (behind item.repaired (.array done :: frames)
          (0x2c :: itemsOnto (0x5d :: tail) (next :: items)))
          (.value, .array (item.repaired :: done) :: frames,
            itemsOnto (0x5d :: tail) (next :: items)) :=
        leadsTo_token 1 rfl fun _ => rfl
      have hmore := ih (List.cons_ne_nil _ _) (fun v hv => h v (List.mem_cons_of_mem _ hv))
        (item.repaired :: done)
      rw [List.reverse_cons, List.append_assoc] at hmore
      exact ((hitem _).trans hcomma).trans hmore

-- The same for members, each behind its key.
theorem leadsTo_members {depth : Nat} {members : List (Text × Json)} (hne : members ≠ [])
    (h : ∀ member ∈ members, ReadsBack depth member.2) (done : List (Text × Json))
    (frames : List Frame) (tail : Text) (hdepth : frames.length + (depth + 1) ≤ maxDepth) :
    LeadsTo (.key, .object done :: frames, membersOnto (0x7d :: tail) members)
      (behind (.object (done.reverse ++ repairedMembers members)) frames tail) := by
  induction members generalizing done with
  | nil => exact absurd rfl hne
  | cons member members ih =>
    obtain ⟨key, v⟩ := member
    have hcolon (rest : Text) :
        LeadsTo (.colon, .member done key.repaired :: frames, Byte.colon :: rest)
          (.value, .member done key.repaired :: frames, rest) :=
      leadsTo_token 1 rfl fun _ => rfl
    have hvalue (rest : Text) := h (key, v) (List.mem_cons_self ..)
      (.member done key.repaired :: frames) rest (by rw [List.length_cons]; omega)
    have hmember (rest : Text) :=
      ((leadsTo_key key done frames _).trans (hcolon _)).trans (hvalue rest)
    cases members with
    | nil =>
      have hclose :
          LeadsTo (behind v.repaired (.member done key.repaired :: frames) (0x7d :: tail))
            (behind (.object ((key.repaired, v.repaired) :: done).reverse) frames tail) :=
        leadsTo_token 1 rfl fun _ => rfl
      rw [List.reverse_cons] at hclose
      exact (hmember _).trans hclose
    | cons next members =>
      have hcomma : LeadsTo (behind v.repaired (.member done key.repaired :: frames)
          (0x2c :: membersOnto (0x7d :: tail) (next :: members)))
          (.key, .object ((key.repaired, v.repaired) :: done) :: frames,
            membersOnto (0x7d :: tail) (next :: members)) :=
        leadsTo_token 1 rfl fun _ => rfl
      have hmore := ih (List.cons_ne_nil _ _) (fun m hm => h m (List.mem_cons_of_mem _ hm))
        ((key.repaired, v.repaired) :: done)
      rw [List.reverse_cons, List.append_assoc] at hmore
      exact ((hmember _).trans hcomma).trans hmore

/-- A tree that is not nested too deeply is read back repaired: by induction on it, with the
containers that are open around it. -/
theorem Shallow.readsBack {depth : Nat} {v : Json} (h : Shallow depth v) : ReadsBack depth v := by
  induction h with
  | null => exact fun frames tail _ => leadsTo_null frames tail
  | bool depth value => exact fun frames tail _ => leadsTo_bool value frames tail
  | string depth text => exact fun frames tail _ => leadsTo_string text frames tail
  | @array depth items h ih =>
    intro frames tail hdepth
    refine (leadsTo_openArray (by omega) _).trans ?_
    cases items with
    | nil => exact leadsTo_token 1 rfl fun _ => rfl
    | cons item items =>
      have hitems := leadsTo_items (List.cons_ne_nil item items) ih [] frames tail hdepth
      obtain ⟨rest, hrest⟩ := exists_itemsOnto item items (0x5d :: tail)
      obtain ⟨b, more, hb, hspace, hclose⟩ :=
        exists_compactOnto (h item (List.mem_cons_self ..)) rest
      rw [hrest, hb] at hitems ⊢
      exact (leadsTo_firstItem hspace hclose _ _).trans hitems
  | @object depth members h ih =>
    intro frames tail hdepth
    refine (leadsTo_openObject (by omega) _).trans ?_
    cases members with
    | nil => exact leadsTo_token 1 rfl fun _ => rfl
    | cons member members =>
      have hmembers := leadsTo_members (List.cons_ne_nil member members) ih [] frames tail hdepth
      obtain ⟨rest, hrest⟩ := exists_membersOnto member members (0x7d :: tail)
      rw [hrest] at hmembers ⊢
      exact (leadsTo_firstKey _ _ _).trans hmembers

/-- A tree that was written is read back, with its texts repaired. -/
theorem read_compact {depth : Nat} {v : Json} (h : Shallow depth v) (hdepth : depth ≤ maxDepth) :
    read (compact v) = .ok v.repaired := by
  obtain ⟨later, hread⟩ := h.readsBack [] [] (by simpa using hdepth) 0
  rw [read, compact]
  refine Eq.trans hread ?_
  simp [readStage, behind, finish, readFrom]

end SvgAssist.Json
