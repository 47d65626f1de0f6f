import SvgAssist.Proofs.Machine.Lines
import SvgAssist.Proofs.Markup.NameAt

/-!
# Names in machine arithmetic

A loop is run for a number of steps that it never uses up: each step comes nearer to the end
(`loop_eq`). With two of them, one to the right and one to the left, names are read byte by byte.
-/

namespace SvgAssist.Machine

/-! ## Loops -/

inductive Next (σ β : Type) where
  | more (state : σ)
  | done (result : β)

section

variable {σ β : Type}

def loop (step : σ → Option (Next σ β)) : Nat → σ → Option β
  | 0, _ => none
  | fuel + 1, s =>
    match step s with
    | none => none
    | some (.more s) => loop step fuel s
    | some (.done result) => some result

/-- What a loop comes to from each state of `Inv`, when every step leaves that as it is and makes
`size` smaller. -/
theorem loop_eq {step : σ → Option (Next σ β)} (Inv : σ → Prop) (size : σ → Nat) (f : σ → β)
    (hstep : ∀ s, Inv s → step s = some (.done (f s)) ∨
      ∃ t, step s = some (.more t) ∧ Inv t ∧ size t < size s ∧ f t = f s)
    {fuel : Nat} {s : σ} (hs : Inv s) (hfuel : size s < fuel) : loop step fuel s = some (f s) := by
  induction fuel generalizing s with
  | zero => exact absurd hfuel (Nat.not_lt_zero _)
  | succ fuel ih =>
    rcases hstep s hs with hdone | ⟨t, hmore, ht, hlt, hsame⟩
    · rw [loop, hdone]
    · rw [loop, hmore, ← hsame]
      exact ih ht (by omega)

end

variable (m : Arithmetic)

def forwardStep (p : UInt8 → Bool) (text : Text) (limit i : Int) : Option (Next Int Int) :=
  if i < limit then do
    let b ← get? text i
    some (if p b then .more (m.add i 1) else .done i)
  else some (.done i)

def forward (p : UInt8 → Bool) (text : Text) (limit i : Int) : Option Int :=
  loop (forwardStep m p text limit) (text.length + 1) i

def backStep (p : UInt8 → Bool) (text : Text) (i : Int) : Option (Next Int Int) :=
  if 0 < i then do
    let b ← get? text (m.sub i 1)
    some (if p b then .more (m.sub i 1) else .done i)
  else some (.done i)

def back (p : UInt8 → Bool) (text : Text) (i : Int) : Option Int :=
  loop (backStep m p text) (text.length + 1) i

/-! ## Names -/

def takeName (text : Text) : Option Text :=
  if text = [] then some []
  else do
    let first ← get? text 0
    if Markup.isNameStart first then
      let stop ← forward m Markup.isNameByte text text.length 1
      cut? text 0 stop
    else some []

def nameAt (line : Text) (column : Int) : Option (Int × Int) :=
  if column < 0 ∨ line.length < column then some (column, column)
  else do
    let start ← back m Markup.isNameByte line column
    let stop ← forward m Markup.isNameByte line line.length column
    let start ← forward m (!Markup.isNameStart ·) line stop start
    some (start, stop)

/-! ## What the machine finds -/

variable {text : Text} (hsize : text.length < 2 ^ 31)
include hsize

-- The loop takes one step for each byte that meets `p`, and the measure is the distance to the
-- limit.
theorem forward_eq (p : UInt8 → Bool) {i limit : Nat} (hi : i ≤ limit)
    (hlimit : limit ≤ text.length) :
    forward m p text limit i =
      some ((i + (((text.take limit).drop i).takeWhile p).length : Nat) : Int) := by
  refine loop_eq (fun i : Int => ∃ k : Nat, i = k ∧ k ≤ limit) (fun i => limit - i.toNat)
    (fun i => ((i.toNat + (((text.take limit).drop i.toNat).takeWhile p).length : Nat) : Int))
    ?_ ⟨i, rfl, hi⟩ (by omega)
  rintro _ ⟨k, rfl, hk⟩
  simp only [Int.toNat_natCast, forwardStep, get?_natCast]
  by_cases hend : k < limit
  · have hk' : k < (text.take limit).length := by
      rw [List.length_take]
      omega
    have hnext : m.add k 1 = ((k + 1 : Nat) : Int) := m.add_one (by omega)
    rw [if_pos (by omega), List.drop_eq_getElem_cons hk', List.getElem_take,
      List.getElem?_eq_getElem (by omega), hnext]
    cases hp : p text[k] with
    | false => simp [hp]
    | true =>
      refine .inr ⟨_, by simp [hp], ⟨k + 1, rfl, hend⟩, by omega, ?_⟩
      rw [Int.toNat_natCast, List.takeWhile_cons_of_pos hp, List.length_cons]
      omega
  · rw [if_neg (by omega), List.drop_eq_nil_of_le (by rw [List.length_take]; omega)]
    exact .inl rfl

-- The same to the left.
theorem back_eq (p : UInt8 → Bool) {i : Nat} (hi : i ≤ text.length) :
    back m p text i =
      some ((i - ((text.take i).reverse.takeWhile p).length : Nat) : Int) := by
  refine loop_eq (fun i : Int => ∃ k : Nat, i = k ∧ k ≤ text.length) (fun i => i.toNat)
    (fun i => ((i.toNat - ((text.take i.toNat).reverse.takeWhile p).length : Nat) : Int))
    ?_ ⟨i, rfl, hi⟩ (by omega)
  rintro _ ⟨k, rfl, hk⟩
  simp only [Int.toNat_natCast, backStep]
  cases k with
  | zero => exact .inl rfl
  | succ k =>
    have hprev : m.sub (k + 1 : Nat) 1 = (k : Int) := m.sub_one (Nat.succ_pos k) (by omega)
    rw [if_pos (by omega), hprev, get?_natCast, List.getElem?_eq_getElem (by omega),
      List.take_succ_eq_append_getElem (show k < text.length by omega), List.reverse_concat]
    cases hp : p text[k] with
    | false => simp [hp]
    | true =>
      refine .inr ⟨_, by simp [hp], ⟨k, rfl, by omega⟩, by omega, ?_⟩
      rw [Int.toNat_natCast, List.takeWhile_cons_of_pos hp, List.length_cons]
      omega

theorem takeName_eq : takeName m text = some (Markup.takeName text) := by
  cases text with
  | nil => rfl
  | cons first rest =>
    have hstop : forward m Markup.isNameByte (first :: rest) (rest.length + 1 : Nat) 1 =
        some ((1 + (rest.takeWhile Markup.isNameByte).length : Nat) : Int) := by
      have hforward := forward_eq m hsize Markup.isNameByte (show 1 ≤ rest.length + 1 by omega)
        (by rw [List.length_cons])
      rwa [List.take_of_length_le (by rw [List.length_cons])] at hforward
    have hshort := (List.takeWhile_prefix (l := rest) Markup.isNameByte).length_le
    have hfirst : get? (first :: rest) 0 = some first := rfl
    rw [takeName, if_neg (List.cons_ne_nil _ _), hfirst, Markup.takeName]
    simp only [Option.bind_eq_bind, Option.bind_some, List.length_cons]
    split_ifs with hstart
    · rw [hstop, Option.bind_some, cut?_front (by rw [List.length_cons]; omega), Nat.add_comm 1,
        List.take_succ_cons, ← List.prefix_iff_eq_take.mp (List.takeWhile_prefix _)]
    · rfl

-- Each cut of the name is between two indices that the loops have given.
theorem nameAt_eq (column : Int) : nameAt m text column = some (Markup.nameAt text column) := by
  by_cases hout : column < 0 ∨ text.length < column
  · rw [nameAt, if_pos hout, Markup.nameAt, if_pos (by simpa using hout)]
  obtain ⟨n, rfl⟩ := Int.eq_ofNat_of_zero_le (show 0 ≤ column by omega)
  have hn : n ≤ text.length := by omega
  obtain ⟨front, left, right, tail, h⟩ := Markup.exists_gathered hn
  have hcolumn := h.column_eq
  have hlength : text.length = n + right.length + tail.length := by
    rw [hcolumn, h.line_eq]
    simp only [List.length_append]
    omega
  -- The third loop runs over what the other two have gathered.
  have hbetween : (text.take (n + right.length)).drop front.length = left ++ right := by
    have hwidth : n + right.length = front.length + (left ++ right).length := by
      rw [List.length_append]
      omega
    rw [hwidth, h.line_eq, ← List.append_assoc left, List.take_length_add_append, List.take_left,
      List.drop_left]
  have hback := back_eq m hsize Markup.isNameByte hn
  have hright := forward_eq m hsize Markup.isNameByte hn le_rfl
  rw [h.takeWhile_before, List.length_reverse, hcolumn, Nat.add_sub_cancel, ← hcolumn] at hback
  rw [List.take_length, h.takeWhile_behind] at hright
  have hleft := forward_eq m hsize (!Markup.isNameStart ·)
    (show front.length ≤ n + right.length by omega) (by omega)
  rw [nameAt, if_neg hout, hback, hright, h.nameAt_eq]
  simp only [Option.bind_eq_bind, Option.bind_some]
  rw [hleft, hbetween, Option.bind_some, List.length_append]
  exact congrArg some (Prod.ext rfl (by simp only; omega))

end SvgAssist.Machine
