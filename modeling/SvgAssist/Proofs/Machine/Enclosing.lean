import SvgAssist.Proofs.Machine.Names
import SvgAssist.Proofs.Markup.Value

/-!
# What encloses a cursor, in machine arithmetic

The walks back from the end of a text, with the indices at which they read and cut it.
-/

namespace SvgAssist.Machine

open Markup (EnclosingTag EnclosingAttribute)

variable (m : Arithmetic)

def enclosingTagStep (text : Text) (i : Int) : Option (Next Int (Option EnclosingTag)) :=
  if i < 0 then some (.done none)
  else do
    let b ← get? text i
    if b = Byte.greater then some (.done none)
    else if b = Byte.less then
      let after ← cut? text (m.add i 1) text.length
      let name ← takeName m after
      if name = [] then some (.done none)
      else
        let rest ← cut? text (m.add (m.add i 1) name.length) text.length
        some (.done (some ⟨name, rest⟩))
    else some (.more (m.sub i 1))

def enclosingTag (text : Text) : Option (Option EnclosingTag) :=
  loop (enclosingTagStep m text) (text.length + 1) (m.sub text.length 1)

def precedingTagStep (text : Text) (i : Int) : Option (Next Int (Option Text)) :=
  if i < 0 then some (.done none)
  else do
    let b ← get? text i
    if b ≠ Byte.less ∨ text.length ≤ m.add i 1 then some (.more (m.sub i 1))
    else
      let c ← get? text (m.add i 1)
      if c = Byte.slash ∨ c = Byte.bang ∨ c = Byte.question then
        let after ← cut? text (m.add i 2) text.length
        let name ← takeName m after
        some (.done (some (c :: name)))
      else if Markup.isNameStart c then
        let after ← cut? text (m.add i 1) text.length
        let name ← takeName m after
        some (.done (some name))
      else some (.more (m.sub i 1))

def precedingTag (text : Text) : Option (Option Text) :=
  let text := Text.withoutTail [Byte.less] text
  loop (precedingTagStep m text) (text.length + 1) (m.sub text.length 1)

/-- The attribute whose value begins at the end of a text. The name and what stands before it are
cut out of the attributes at the indices at which the name was matched. -/
def enclosingAttribute (text : Text) : Option (Option EnclosingAttribute) := do
  match ← enclosingTag m text with
  | none => some none
  | some tag =>
    match Markup.openValue tag.rest with
    | none => some none
    | some (front, name) =>
      let start : Int := front.length
      let before ← cut? tag.rest 0 start
      if before.count Byte.doubleQuote % 2 ≠ 0 then some none
      else
        let name ← cut? tag.rest start (m.add start name.length)
        some (some ⟨tag.name, name⟩)

/-! ## What the machine finds -/

-- Only a `<` can end the walk.
theorem precedingTagBack_of_ne {b : UInt8} (hb : b ≠ Byte.less) (after : Text)
    (earlier : List UInt8) :
    Markup.precedingTagBack after (b :: earlier) =
      Markup.precedingTagBack (b :: after) earlier := by
  conv_lhs => unfold Markup.precedingTagBack
  split
  · exact absurd rfl hb
  · rfl

-- Where the walk meets a `<`, the byte behind it decides.
theorem precedingTagBack_less (c : UInt8) (rest : Text) (earlier : List UInt8) :
    Markup.precedingTagBack (c :: rest) (Byte.less :: earlier) =
      if c = Byte.slash || c = Byte.bang || c = Byte.question then
        some (c :: Markup.takeName rest)
      else if Markup.isNameStart c then some (Markup.takeName (c :: rest))
      else Markup.precedingTagBack (Byte.less :: c :: rest) earlier := rfl

variable {text : Text} (hsize : text.length < 2 ^ 31)
include hsize

/-- A walk back over a text, which may end at each of its bytes. `f` is what it comes to, by the
bytes behind the walk and those in front of it. -/
theorem walkBack_eq {β : Type} {step : Int → Option (Next Int β)} (f : Text → List UInt8 → β)
    (hend : step (-1) = some (.done (f text [])))
    (hstep : ∀ front b after, text = front ++ b :: after →
      step front.length = some (.done (f after (b :: front.reverse))) ∨
      step front.length = some (.more (m.sub front.length 1)) ∧
        f (b :: after) front.reverse = f after (b :: front.reverse)) :
    loop step (text.length + 1) (m.sub text.length 1) = some (f [] text.reverse) := by
  have hstart : m.sub text.length 1 = (text.length : Int) - 1 :=
    m.sub_eq (by unfold IsWord; omega)
  rw [hstart]
  refine (loop_eq (fun i : Int => ∃ front behind, text = front ++ behind ∧ i = front.length - 1)
    (fun i => (i + 1).toNat)
    (fun i => f (text.drop (i + 1).toNat) (text.take (i + 1).toNat).reverse) ?_
    ⟨text, [], (List.append_nil text).symm, rfl⟩ (by omega)).trans (by simp)
  rintro _ ⟨front, behind, hsplit, rfl⟩
  have hnumber : ((front.length : Int) - 1 + 1).toNat = front.length := by omega
  rw [hnumber, hsplit, List.drop_left, List.take_left]
  rcases List.eq_nil_or_concat' front with rfl | ⟨front, b, rfl⟩
  · rw [List.nil_append] at hsplit
    exact .inl (by simpa [hsplit] using hend)
  rw [List.append_assoc, List.singleton_append] at hsplit
  have hprev : m.sub front.length 1 = (front.length : Int) - 1 := by
    rw [hsplit, List.length_append, List.length_cons] at hsize
    exact m.sub_eq (by unfold IsWord; omega)
  have hindex : ((front ++ [b]).length : Int) - 1 = front.length := by
    rw [List.length_append, List.length_singleton]
    omega
  have hnumber : ((front.length : Int) - 1 + 1).toNat = front.length := by omega
  rw [hindex, List.reverse_concat, List.append_assoc, List.singleton_append]
  refine (hstep front b behind hsplit).imp_right fun ⟨hmore, hsame⟩ => ?_
  refine ⟨_, hmore, ⟨front, b :: behind, rfl, hprev⟩, ?_, ?_⟩
  · rw [hprev, hnumber, List.length_append, List.length_singleton]
    omega
  · rw [hprev, hnumber, List.drop_left, List.take_left, hsame]

-- Either the step ends the walk as the recursion does, or both go on one byte further back.
omit hsize in
theorem enclosingTagStep_eq {front after : Text} {b : UInt8}
    (hsize : (front ++ b :: after).length < 2 ^ 31) :
    enclosingTagStep m (front ++ b :: after) front.length =
        some (.done (Markup.enclosingTagBack after (b :: front.reverse))) ∨
      enclosingTagStep m (front ++ b :: after) front.length =
          some (.more (m.sub front.length 1)) ∧
        Markup.enclosingTagBack (b :: after) front.reverse =
          Markup.enclosingTagBack after (b :: front.reverse) := by
  have hlen := hsize
  rw [List.length_append, List.length_cons] at hlen
  have hnext : m.add front.length 1 = ((front.length + 1 : Nat) : Int) := m.add_one (by omega)
  have hafter : cut? (front ++ b :: after) (front.length + 1 : Nat) (front ++ b :: after).length =
      some after := cut?_split (List.append_cons front b after) (by simp)
  rw [enclosingTagStep, if_neg (by omega), get?_split rfl rfl, Markup.enclosingTagBack, hnext,
    hafter]
  simp only [Option.bind_eq_bind, Option.bind_some]
  rw [takeName_eq m (by omega), Option.bind_some]
  by_cases hgreater : b = Byte.greater
  · rw [if_pos hgreater, if_pos hgreater]
    exact .inl rfl
  rw [if_neg hgreater, if_neg hgreater]
  by_cases hless : b = Byte.less
  · have hshort := (Markup.isPrefix_takeName after).length_le
    have hbehind : m.add (front.length + 1 : Nat) (Markup.takeName after).length =
        ((front.length + 1 + (Markup.takeName after).length : Nat) : Int) :=
      m.add_natCast (by omega)
    have hcut : cut? (front ++ b :: after)
        (front.length + 1 + (Markup.takeName after).length : Nat) (front ++ b :: after).length =
        some (after.drop (Markup.takeName after).length) := by
      have hsplit : front ++ b :: after =
          (front ++ b :: Markup.takeName after) ++ after.drop (Markup.takeName after).length := by
        rw [List.append_assoc, List.cons_append,
          List.prefix_iff_eq_append.mp (Markup.isPrefix_takeName after)]
      exact cut?_split hsplit (by rw [List.length_append, List.length_cons]; omega)
    rw [if_pos hless, if_pos hless, hbehind, hcut]
    left
    split_ifs <;> rfl
  · rw [if_neg hless, if_neg hless]
    exact .inr ⟨rfl, rfl⟩

theorem enclosingTag_eq : enclosingTag m text = some (Markup.enclosingTag text) := by
  refine walkBack_eq m hsize Markup.enclosingTagBack rfl ?_
  rintro front b after rfl
  exact enclosingTagStep_eq m hsize

-- The same for the walk to the last tag.
omit hsize in
theorem precedingTagStep_eq {front after : Text} {b : UInt8}
    (hsize : (front ++ b :: after).length < 2 ^ 31) :
    precedingTagStep m (front ++ b :: after) front.length =
        some (.done (Markup.precedingTagBack after (b :: front.reverse))) ∨
      precedingTagStep m (front ++ b :: after) front.length =
          some (.more (m.sub front.length 1)) ∧
        Markup.precedingTagBack (b :: after) front.reverse =
          Markup.precedingTagBack after (b :: front.reverse) := by
  have hlen := hsize
  rw [List.length_append, List.length_cons] at hlen
  have hnext : m.add front.length 1 = ((front.length + 1 : Nat) : Int) := m.add_one (by omega)
  rw [precedingTagStep, if_neg (by omega), get?_split rfl rfl, hnext]
  simp only [Option.bind_eq_bind, Option.bind_some]
  by_cases hless : b = Byte.less
  · subst hless
    cases after with
    | nil =>
      rw [if_pos (.inr (by simp))]
      exact .inr ⟨rfl, rfl⟩
    | cons c rest =>
      have hsecond : m.add front.length 2 = ((front.length + 2 : Nat) : Int) :=
        m.add_natCast (b := 2) (by omega)
      have hsplit := List.append_cons front Byte.less (c :: rest)
      have hget : get? (front ++ Byte.less :: c :: rest) (front.length + 1 : Nat) = some c :=
        get?_split hsplit (by simp)
      have hafter : cut? (front ++ Byte.less :: c :: rest) (front.length + 1 : Nat)
          (front ++ Byte.less :: c :: rest).length = some (c :: rest) := cut?_split hsplit (by simp)
      have hbehind : cut? (front ++ Byte.less :: c :: rest) (front.length + 2 : Nat)
          (front ++ Byte.less :: c :: rest).length = some rest :=
        cut?_split (hsplit.trans (List.append_cons _ c rest)) (by simp)
      have hinside : ¬ (Byte.less ≠ Byte.less ∨
          ((front ++ Byte.less :: c :: rest).length : Int) ≤ (front.length + 1 : Nat)) := by
        rw [List.length_append, List.length_cons, List.length_cons]
        exact not_or.mpr ⟨not_not.mpr rfl, by omega⟩
      rw [List.length_cons] at hlen
      rw [if_neg hinside, hsecond, hget, hafter, hbehind]
      simp only [Option.bind_some]
      rw [takeName_eq m (by omega), takeName_eq m (by rw [List.length_cons]; omega),
        precedingTagBack_less]
      simp only [Bool.or_eq_true, decide_eq_true_eq, or_assoc, Option.bind_some]
      split_ifs
      · exact .inl rfl
      · exact .inl rfl
      · exact .inr ⟨rfl, rfl⟩
  · rw [if_pos (.inl hless), precedingTagBack_of_ne hless]
    exact .inr ⟨rfl, rfl⟩

theorem precedingTag_eq : precedingTag m text = some (Markup.precedingTag text) := by
  have hshort : (Text.withoutTail [Byte.less] text).length < 2 ^ 31 := by
    unfold Text.withoutTail
    split_ifs
    · exact (List.length_take_le' _ _).trans_lt hsize
    · exact hsize
  refine walkBack_eq m hshort Markup.precedingTagBack rfl fun front b after hsplit => ?_
  rw [hsplit] at hshort ⊢
  exact precedingTagStep_eq m hshort

-- What is cut out at the indices of the match is the name and what stands in front of it.
theorem enclosingAttribute_eq :
    enclosingAttribute m text = some (Markup.enclosingAttribute text) := by
  rw [enclosingAttribute, enclosingTag_eq m hsize, Markup.enclosingAttribute]
  cases htag : Markup.enclosingTag text with
  | none => rfl
  | some tag =>
    have hrest : tag.rest.length ≤ text.length := by
      obtain ⟨front, rfl, -⟩ := Markup.enclosingTag_eq_some_iff.mp htag
      simp only [List.length_append, List.length_cons]
      omega
    cases hopen : Markup.openValue tag.rest with
    | none => simp [hopen]
    | some found =>
      obtain ⟨front, name⟩ := found
      obtain ⟨v, hrender, rfl, rfl⟩ := Markup.exists_render_of_openValue hopen
      obtain ⟨tail, hv⟩ : ∃ tail, v.render = v.before ++ (v.name ++ tail) := ⟨_, rfl⟩
      rw [hrender] at hv
      have hlen := congrArg List.length hv
      rw [List.length_append, List.length_append] at hlen
      have hstop : m.add v.before.length v.name.length =
          ((v.before.length + v.name.length : Nat) : Int) := m.add_natCast (by omega)
      simp only [Option.bind_eq_bind, Option.bind_some, hopen]
      rw [cut?_front (by omega), hstop, cut?_natCast (by omega) (by omega), hv]
      simp only [Option.bind_some, List.take_left, List.drop_left, Nat.add_sub_cancel_left]
      by_cases hquotes : v.before.count Byte.doubleQuote % 2 = 0
      · rw [if_neg (not_not.mpr hquotes), if_pos hquotes]
      · rw [if_pos hquotes, if_neg hquotes]

end SvgAssist.Machine
