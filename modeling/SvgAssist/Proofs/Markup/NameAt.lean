import SvgAssist.Proofs.Markup.Recovery

/-!
# The name at a column

The name that is found at a column is one as long as it can be to the right, and it ends at the
column or behind it (`nameAt_eq`). It begins at the column or in front of it just when some name of
the line touches the column (`Gathered.touches_iff`).
-/

namespace SvgAssist.Markup

def Touches (line : Text) (column : Nat) : Prop :=
  ∃ (start : Nat) (name : TagName), name.bytes <+: line.drop start ∧
    start ≤ column ∧ column ≤ start + name.bytes.length

/-- A line that is cut off behind a column is touched there by the same names, or by what is left of
them. -/
theorem touches_take_iff {line : Text} {column limit : Nat} (hlt : column < limit) :
    Touches (line.take limit) column ↔ Touches line column := by
  constructor
  · rintro ⟨start, name, hprefix, hlo, hhi⟩
    rw [List.drop_take] at hprefix
    exact ⟨start, name, hprefix.trans (List.take_prefix _ _), hlo, hhi⟩
  · rintro ⟨start, name, ⟨more, hmore⟩, hlo, hhi⟩
    have hpos := List.length_pos_iff.mpr name.ne_nil
    have hlen : (name.bytes.take (limit - start)).length =
        min (limit - start) name.bytes.length := List.length_take
    refine ⟨start, ⟨name.bytes.take (limit - start), ?_, ?_⟩, ?_, hlo, ?_⟩
    · rw [takeName_take, name.whole]
    · rw [← List.length_pos_iff]
      omega
    · rw [List.drop_take, ← hmore, List.take_append]
      exact List.prefix_append _ _
    · simp only
      omega

structure Gathered (line : Text) (column : Nat) (front left right tail : Text) : Prop where
  line_eq : line = front ++ (left ++ (right ++ tail))
  column_eq : column = front.length + left.length
  gathered : ∀ b ∈ left ++ right, isNameByte b
  front_stops : ∀ b, front.getLast? = some b → ¬ isNameByte b
  tail_stops : ∀ b, tail.head? = some b → ¬ isNameByte b

-- Every column splits its line, with what touches it on both sides.
theorem exists_gathered {line : Text} {column : Nat} (h : column ≤ line.length) :
    ∃ front left right tail, Gathered line column front left right tail := by
  set before := (line.take column).reverse with hbefore
  have hfront : (before.dropWhile isNameByte).reverse ++ (before.takeWhile isNameByte).reverse =
      line.take column := by
    rw [← List.reverse_append, List.takeWhile_append_dropWhile, hbefore, List.reverse_reverse]
  have hrest : (line.drop column).takeWhile isNameByte ++ (line.drop column).dropWhile isNameByte =
      line.drop column := List.takeWhile_append_dropWhile
  refine ⟨(before.dropWhile isNameByte).reverse, (before.takeWhile isNameByte).reverse,
    (line.drop column).takeWhile isNameByte, (line.drop column).dropWhile isNameByte,
    ?_, ?_, fun b hb => ?_, fun b hb => ?_, fun b hb => ?_⟩
  · rw [hrest, ← List.append_assoc, hfront, List.take_append_drop]
  · rw [← List.length_append, hfront, List.length_take, Nat.min_eq_left h]
  · rcases List.mem_append.mp hb with hb | hb
    · exact List.mem_takeWhile_imp (List.mem_reverse.mp hb)
    · exact List.mem_takeWhile_imp hb
  · rw [List.getLast?_reverse] at hb
    have hstop := List.head?_dropWhile_not isNameByte before
    rw [hb] at hstop
    simpa using hstop
  · have hstop := List.head?_dropWhile_not isNameByte (line.drop column)
    rw [hb] at hstop
    simpa using hstop

namespace Gathered

variable {line front left right tail : Text} {column : Nat}
  (h : Gathered line column front left right tail)
include h

theorem takeWhile_before : (line.take column).reverse.takeWhile isNameByte = left.reverse := by
  have hcut : line = (front ++ left) ++ (right ++ tail) := by
    rw [h.line_eq, List.append_assoc]
  have hcolumn : column = (front ++ left).length := by rw [h.column_eq, List.length_append]
  rw [hcut, hcolumn, List.take_left, List.reverse_append]
  refine takeWhile_append_of_stop (fun b hb => ?_) (fun b hb => h.front_stops b ?_)
  · exact h.gathered b (List.mem_append_left _ (List.mem_reverse.mp hb))
  · rwa [List.head?_reverse] at hb

theorem takeWhile_behind : (line.drop column).takeWhile isNameByte = right := by
  have hcut : line = (front ++ left) ++ (right ++ tail) := by
    rw [h.line_eq, List.append_assoc]
  have hcolumn : column = (front ++ left).length := by rw [h.column_eq, List.length_append]
  rw [hcut, hcolumn, List.drop_left]
  exact takeWhile_append_of_stop (fun b hb => h.gathered b (List.mem_append_right _ hb))
    h.tail_stops

/-- The bounds of the name at the column: what is gathered, without what cannot begin a name. -/
theorem nameAt_eq :
    nameAt line column =
      (((front.length + ((left ++ right).takeWhile (!isNameStart ·)).length : Nat) : Int),
        ((front.length + (left ++ right).length : Nat) : Int)) := by
  have hlen : line.length = column + (right ++ tail).length := by
    rw [h.line_eq, h.column_eq, List.length_append, List.length_append, Nat.add_assoc]
  have hinside : ¬ ((column : Int) < 0 || (line.length : Int) < column) := by
    rw [Bool.or_eq_true, decide_eq_true_eq, decide_eq_true_eq]
    omega
  rw [nameAt, if_neg hinside]
  simp only [Int.toNat_natCast, h.takeWhile_before, h.takeWhile_behind, List.reverse_reverse]
  have hsum := h.column_eq
  refine Prod.ext ?_ ?_
  · simp only
    omega
  · simp only [List.length_append]
    omega

-- What is left when the bytes in front that cannot begin a name are given up.
theorem exists_name (hne : (left ++ right).dropWhile (!isNameStart ·) ≠ []) :
    ∃ name : TagName, name.bytes = (left ++ right).dropWhile (!isNameStart ·) := by
  obtain ⟨b, more, hkept⟩ := List.exists_cons_of_ne_nil hne
  have hb : isNameStart b := by
    have hstop := List.head?_dropWhile_not (!isNameStart ·) (left ++ right)
    rw [hkept] at hstop
    simpa using hstop
  have hmore (c : UInt8) (hc : c ∈ more) : isNameByte c := by
    have hmem : c ∈ (left ++ right).dropWhile (!isNameStart ·) := hkept ▸ List.mem_cons_of_mem b hc
    exact h.gathered c ((List.dropWhile_suffix _).mem hmem)
  refine ⟨⟨_, ?_, hne⟩, rfl⟩
  rw [hkept, takeName, if_pos hb, List.takeWhile_eq_self_iff.mpr hmore]

/-- A name touches the column just when a byte that can begin one is gathered in front of the column
or stands at it. -/
theorem touches_iff :
    Touches line column ↔ (left ++ right).dropWhile (!isNameStart ·) ≠ [] ∧
      ((left ++ right).takeWhile (!isNameStart ·)).length ≤ left.length := by
  set given := (left ++ right).takeWhile (!isNameStart ·) with hgiven
  set kept := (left ++ right).dropWhile (!isNameStart ·) with hkept
  have hsplit : given ++ kept = left ++ right := List.takeWhile_append_dropWhile
  have hlen : given.length + kept.length = left.length + right.length := by
    rw [← List.length_append, hsplit, List.length_append]
  have hcolumn := h.column_eq
  constructor
  · rintro ⟨start, name, ⟨more, hmore⟩, hlo, hhi⟩
    have hat {i : Nat} (hi : i < name.bytes.length) : (line)[start + i]? = name.bytes[i]? := by
      rw [← List.getElem?_drop, ← hmore, List.getElem?_append_left hi]
    -- The name does not begin in front of what is gathered, since it reaches the column.
    have hfront : front.length ≤ start := by
      by_contra hlt
      have hi : front.length - 1 - start < name.bytes.length := by omega
      have hindex : start + (front.length - 1 - start) = front.length - 1 := by omega
      have hlast : front.getLast? = some name.bytes[front.length - 1 - start] := by
        rw [List.getLast?_eq_getElem?, ← List.getElem?_eq_getElem hi, ← hat hi, hindex, h.line_eq,
          List.getElem?_append_left (by omega)]
      exact h.front_stops _ hlast (name.isNameByte_of_mem (List.getElem_mem hi))
    obtain ⟨k, rfl⟩ := Nat.exists_eq_add_of_le hfront
    obtain ⟨b, rest, hbytes, hb, -⟩ := name.exists_cons
    have hfirst : (left ++ right ++ tail)[k]? = some b := by
      have hzero := hat (List.length_pos_iff.mpr name.ne_nil)
      rwa [hbytes, List.getElem?_cons_zero, Nat.add_zero, h.line_eq, List.getElem?_append_right
        (Nat.le_add_right _ _), Nat.add_sub_cancel_left, ← List.append_assoc] at hzero
    have hinside : k < (left ++ right).length := by
      by_contra hout
      rw [List.length_append] at hout
      obtain rfl : k = (left ++ right).length := by
        rw [List.length_append]
        omega
      rw [List.getElem?_append_right le_rfl, Nat.sub_self, ← List.head?_eq_getElem?] at hfirst
      exact h.tail_stops b hfirst (by simp [isNameByte, hb])
    -- No byte that is given up can begin the name.
    have hgivenUp : given.length ≤ k := by
      by_contra hlt
      rw [List.getElem?_append_left hinside, ← hsplit, List.getElem?_append_left (by omega)]
        at hfirst
      have hnot := List.mem_takeWhile_imp (List.mem_of_getElem? hfirst)
      simp [hb] at hnot
    rw [List.length_append] at hinside
    refine ⟨fun hnil => ?_, by omega⟩
    rw [hnil, List.length_nil] at hlen
    omega
  · rintro ⟨hne, hle⟩
    obtain ⟨name, hname⟩ := h.exists_name hne
    refine ⟨front.length + given.length, name, ⟨tail, ?_⟩, by omega, ?_⟩
    · rw [h.line_eq, List.drop_length_add_append, ← List.append_assoc, ← hsplit, List.append_assoc,
        List.drop_left, hname]
    · rw [hname, ← hkept]
      omega

end Gathered

/-- Where the bounds of a name are found, the name stands between them and does not go on. It ends
at the column or behind it, and begins behind the column if no name touches that. -/
theorem exists_of_nameAt {line : Text} {column start stop : Int}
    (h : nameAt line column = (start, stop)) (hne : start ≠ stop) :
    ∃ (n : Nat) (front tail : Text) (name : TagName), column = n ∧ n ≤ line.length ∧
      line = front ++ (name.bytes ++ tail) ∧ start = front.length ∧
      stop = (front.length + name.bytes.length : Nat) ∧
      (∀ b, tail.head? = some b → ¬ isNameByte b) ∧
      n ≤ front.length + name.bytes.length ∧ (front.length ≤ n ↔ Touches line n) := by
  have hinside : ¬ (column < 0 || (line.length : Int) < column) := by
    intro hout
    rw [nameAt, if_pos hout] at h
    exact hne ((Prod.mk.inj h).1.symm.trans (Prod.mk.inj h).2)
  rw [Bool.or_eq_true, decide_eq_true_eq, decide_eq_true_eq] at hinside
  obtain ⟨n, rfl⟩ := Int.eq_ofNat_of_zero_le (show 0 ≤ column by omega)
  have hn : n ≤ line.length := by omega
  obtain ⟨front, left, right, tail, hgathered⟩ := exists_gathered hn
  rw [hgathered.nameAt_eq] at h
  obtain ⟨rfl, rfl⟩ := Prod.mk.inj h
  have htouches := hgathered.touches_iff
  have hcolumn := hgathered.column_eq
  set given := (left ++ right).takeWhile (!isNameStart ·)
  set kept := (left ++ right).dropWhile (!isNameStart ·) with hkept
  have hsplit : given ++ kept = left ++ right := List.takeWhile_append_dropWhile
  have hlen : given.length + kept.length = (left ++ right).length := by
    rw [← List.length_append, hsplit]
  have hfound : kept ≠ [] := by
    intro hnil
    rw [hnil, List.length_nil] at hlen
    omega
  obtain ⟨name, hname⟩ := hgathered.exists_name hfound
  rw [← hkept] at hname
  rw [List.length_append] at hlen
  refine ⟨n, front ++ given, tail, name, rfl, hn, ?_, by rw [List.length_append], ?_,
    hgathered.tail_stops, ?_, ?_⟩
  · rw [hgathered.line_eq, hname, ← List.append_assoc left, ← hsplit]
    simp only [List.append_assoc]
  · rw [hname, List.length_append, List.length_append]
    omega
  · rw [hname, List.length_append]
    omega
  · rw [htouches, and_iff_right hfound, List.length_append]
    omega

theorem nameAt_nil (column : Int) : nameAt [] column = (column, column) := by
  simp [nameAt]

/-- The name at a column of a line that is read up to a limit is one of the whole line, but for a
name that is cut off there. -/
theorem exists_of_nameAt_take {line : Text} {limit : Nat} {column start stop : Int}
    (h : nameAt (line.take limit) column = (start, stop)) (hne : start ≠ stop) :
    ∃ (n : Nat) (front tail : Text) (name : TagName), column = n ∧
      line = front ++ (name.bytes ++ tail) ∧ start = front.length ∧
      stop = (front.length + name.bytes.length : Nat) ∧
      front.length + name.bytes.length ≤ limit ∧
      (front.length + name.bytes.length < limit →
        ∀ b, tail.head? = some b → ¬ isNameByte b) ∧
      n ≤ front.length + name.bytes.length ∧ (front.length ≤ n ↔ Touches line n) := by
  obtain ⟨n, front, tail, name, hcolumn, hn, hsplit, hstart, hstop, hstops, hreach, htouches⟩ :=
    exists_of_nameAt h hne
  have hline : line = front ++ (name.bytes ++ (tail ++ line.drop limit)) := by
    rw [← List.append_assoc name.bytes, ← List.append_assoc front, ← hsplit, List.take_append_drop]
  have hlen : (line.take limit).length = front.length + (name.bytes.length + tail.length) := by
    rw [hsplit, List.length_append, List.length_append]
  have hlimit := List.length_take_le limit line
  refine ⟨n, front, tail ++ line.drop limit, name, hcolumn, hline, hstart, hstop, by omega,
    fun hinside b hb => hstops b ?_, hreach, ?_⟩
  -- The limit is behind the name, so what follows the name is read, or the line ends there.
  · cases tail with
    | nil =>
      rw [List.length_take, List.length_nil] at hlen
      rw [List.drop_eq_nil_of_le (by omega)] at hb
      exact hb
    | cons c tail => exact hb
  · by_cases hinside : n < (line.take limit).length
    · rw [htouches, touches_take_iff (by omega)]
    -- Behind all that is read, the name that is found ends at the column.
    · have hpos := List.length_pos_iff.mpr name.ne_nil
      refine iff_of_true (by omega) ⟨front.length, name, ?_, by omega, hreach⟩
      rw [hline, List.drop_left]
      exact List.prefix_append _ _

/-- The digits of `12x` can begin no name, so that in front of them the name behind them is found,
which a column in front of them does not touch. -/
example : nameAt (utf8 " 12x") 1 = (3, 4) := by decide

end SvgAssist.Markup
