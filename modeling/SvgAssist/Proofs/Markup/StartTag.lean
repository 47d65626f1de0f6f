import SvgAssist.Proofs.Markup.Laminar
import SvgAssist.Proofs.Markup.Recovery
import SvgAssist.Proofs.Text.Columns

/-!
# The name of a start tag

A place in the name of a start tag, or at one of its ends, is a place for a cursor
(`StartsTag.caret`), and the name is found again by looking around it on its line (`nameAt_inside`,
`StartsTag.exists_slice`).
-/

namespace SvgAssist.Markup

/-! ## The name that a column touches -/

section

variable {front name tail : Text} {j : Nat} (hj : j ≤ name.length)
include hj

-- A cut in the name keeps all that is in front of the tag and the first bytes of the name.
theorem take_in_name : (front ++ Byte.less :: (name ++ tail)).take (front.length + 1 + j) =
    front ++ Byte.less :: name.take j := by
  rw [Nat.add_assoc, Nat.add_comm 1, List.take_length_add_append, List.take_succ_cons,
    List.take_append_of_le_length hj]

theorem drop_in_name : (front ++ Byte.less :: (name ++ tail)).drop (front.length + 1 + j) =
    name.drop j ++ tail := by
  rw [Nat.add_assoc, Nat.add_comm 1, List.drop_length_add_append, List.drop_succ_cons,
    List.drop_append_of_le_length hj]

end

/-- A column that touches a name behind a `<` has the bounds of that name. -/
theorem nameAt_inside (name : TagName) {front tail : Text}
    (htail : ∀ b, tail.head? = some b → ¬ isNameByte b) {j : Nat} (hj : j ≤ name.bytes.length) :
    nameAt (front ++ Byte.less :: (name.bytes ++ tail)) ((front.length + 1 + j : Nat) : Int) =
      (((front.length + 1 : Nat) : Int), ((front.length + 1 + name.bytes.length : Nat) : Int)) := by
  have hlen : (front ++ Byte.less :: (name.bytes ++ tail)).length =
      front.length + 1 + name.bytes.length + tail.length := by
    simp only [List.length_append, List.length_cons]
    omega
  -- To the left the name ends at the `<`, to the right where it does in the text.
  have hleft : (front ++ Byte.less :: name.bytes.take j).reverse.takeWhile isNameByte =
      (name.bytes.take j).reverse := by
    rw [List.reverse_append, List.reverse_cons, List.append_assoc]
    refine takeWhile_append_of_stop (fun b hb => ?_) ?_
    · exact name.isNameByte_of_mem (List.mem_of_mem_take (List.mem_reverse.mp hb))
    · rintro b ⟨⟩
      decide
  have hright : (name.bytes.drop j ++ tail).takeWhile isNameByte = name.bytes.drop j :=
    takeWhile_append_of_stop
      (fun b hb => name.isNameByte_of_mem (List.mem_of_mem_drop hb)) htail
  have hgiven : name.bytes.takeWhile (!isNameStart ·) = [] := by
    obtain ⟨b, more, hbytes, hb, -⟩ := name.exists_cons
    rw [hbytes, List.takeWhile_cons_of_neg (by simp [hb])]
  have hinside : ¬ (((front.length + 1 + j : Nat) : Int) < 0 ||
      ((front ++ Byte.less :: (name.bytes ++ tail)).length : Int) <
        ((front.length + 1 + j : Nat) : Int)) := by
    rw [hlen]
    simp only [Bool.or_eq_true, decide_eq_true_eq]
    omega
  rw [nameAt, if_neg (by simpa using hinside)]
  simp only [Int.toNat_natCast, take_in_name hj, drop_in_name hj, hleft, hright,
    List.reverse_reverse, List.take_append_drop, hgiven, List.length_nil, List.length_take,
    List.length_drop]
  refine Prod.ext ?_ ?_
  · simp only
    omega
  · simp only
    omega

/-! ## Start tags -/

-- Names are ASCII and end no line.
theorem TagName.plain (name : TagName) : Text.Plain name.bytes :=
  fun _ hb => ascii_of_isNameByte (name.isNameByte_of_mem hb)

theorem TagName.plain_less (name : TagName) : Text.Plain (Byte.less :: name.bytes) :=
  Text.Plain.append (a := [Byte.less]) (by decide) name.plain

structure StartsTag (text : Text) (start : Nat) (name : TagName) : Prop where
  less : text[start]? = some Byte.less
  name_eq : takeName (text.drop (start + 1)) = name.bytes

-- Every element of an outline has one.
theorem IsStart.startsTag {text name : Text} {start : Nat}
    (h : IsStart (eventsFrom 0 text) name start) :
    ∃ n : TagName, n.bytes = name ∧ StartsTag text start n := by
  obtain ⟨hless, hname, hne⟩ := h.tag
  exact ⟨⟨name, by rw [← hname, takeName_takeName], hne⟩, rfl, hless, hname⟩

namespace StartsTag

variable {text : Text} {start : Nat} {name : TagName} (h : StartsTag text start name)
include h

theorem drop_start :
    text.drop start = Byte.less :: (name.bytes ++ text.drop (start + 1 + name.bytes.length)) := by
  obtain ⟨hlen, hless⟩ := List.getElem?_eq_some_iff.mp h.less
  have hname := List.prefix_iff_eq_append.mp (isPrefix_takeName (text.drop (start + 1)))
  rw [h.name_eq, List.drop_drop] at hname
  rw [List.drop_eq_getElem_cons hlen, hless, hname]

theorem not_isNameByte_behind :
    ∀ b, (text.drop (start + 1 + name.bytes.length)).head? = some b → ¬ isNameByte b := by
  have hbehind := not_isNameByte_behind_takeName (h.name_eq ▸ name.ne_nil)
  rwa [h.name_eq, List.drop_drop] at hbehind

variable {j : Nat} (hj : j ≤ name.bytes.length)
include hj

theorem take_drop_start :
    (text.drop start).take (j + 1) = Byte.less :: name.bytes.take j := by
  rw [h.drop_start, List.take_succ_cons, List.take_append_of_le_length hj]

-- No line ends inside of a name.
theorem newline_notMem : Byte.newline ∉ (text.drop start).take (j + 1) := by
  rw [h.take_drop_start hj, ← List.take_succ_cons]
  exact (name.plain_less.take _).newline_notMem

theorem lineBefore_name :
    Text.lineBefore text (start + 1 + j) =
      Text.lineBefore text start ++ Byte.less :: name.bytes.take j := by
  rw [Nat.add_assoc, Nat.add_comm 1, Text.lineBefore_add (h.newline_notMem hj),
    h.take_drop_start hj]

theorem count_name :
    (text.take (start + 1 + j)).count Byte.newline = (text.take start).count Byte.newline := by
  rw [Nat.add_assoc, Nat.add_comm 1, Text.count_take_add (h.newline_notMem hj)]

/-- A cursor can stand in a name and at its ends. -/
theorem caret : Text.Caret text (start + 1 + j) := by
  obtain ⟨b, hb⟩ : ∃ b, (Byte.less :: name.bytes)[j]? = some b :=
    ⟨_, List.getElem?_eq_getElem (Nat.lt_succ_of_le hj)⟩
  have hat : text[start + j]? = some b := by
    rw [← List.getElem?_drop, h.drop_start, ← List.cons_append, List.getElem?_append_left, hb]
    exact Nat.lt_succ_of_le hj
  have hascii := name.plain_less b (List.mem_of_getElem? hb)
  rw [Nat.add_right_comm]
  exact .behind_ascii hat hascii.1 hascii.2.2

-- So a place in the name is on the line of the `<`, as many bytes further on.
theorem positionAt_name :
    Text.positionAt text (start + 1 + j : Nat) =
      ⟨(text.take start).count Byte.newline,
        ((Text.lineBefore text start).length + 1 + j : Nat)⟩ := by
  rw [Text.positionAt_natCast, h.count_name hj, h.lineBefore_name hj, List.length_append,
    List.length_cons, List.length_take, Nat.min_eq_left hj, Nat.add_assoc, Nat.add_comm 1]

omit hj in
-- The line as far as it is read, cut at the ends of the name.
theorem exists_slice {column : Int}
    (hcolumn : ((Text.lineBefore text start).length + 1 + name.bytes.length : Nat) ≤ column) :
    ∃ tail, Text.slice text
        ⟨⟨(text.take start).count Byte.newline, 0⟩,
          ⟨(text.take start).count Byte.newline, column⟩⟩ =
        Text.lineBefore text start ++ Byte.less :: (name.bytes ++ tail) ∧
      ∀ b, tail.head? = some b → ¬ isNameByte b := by
  have hwhole := le_refl name.bytes.length
  set stop := start + 1 + name.bytes.length with hstop
  set shown := Text.line text ((text.take start).count Byte.newline : Nat) with hshown
  have hbefore := h.lineBefore_name hwhole
  rw [List.take_length, ← hstop] at hbefore
  have hcount := h.count_name hwhole
  rw [← hstop] at hcount
  have htake := Text.take_line (h.caret hwhole).notAfterReturn
  rw [← hstop, hcount, ← hshown] at htake
  obtain ⟨behind, hbehind⟩ : ∃ behind, shown = Text.lineBefore text stop ++ behind :=
    ⟨_, by conv_lhs => rw [← List.take_append_drop (Text.lineBefore text stop).length shown, htake]⟩
  -- The line goes on behind the name as the text does.
  have hrest : behind <+: text.drop stop := by
    have hline := Text.isPrefix_withoutReturn
      (Text.lineBefore text stop ++ Text.lineAfter text stop)
    rw [← Text.line_at, hcount, ← hshown, hbehind, List.prefix_append_right_inj] at hline
    exact hline.trans (List.takeWhile_prefix _)
  have hlen : (Text.lineBefore text stop).length ≤ column.toNat := by
    rw [hbefore, List.length_append, List.length_cons]
    omega
  refine ⟨behind.take (column.toNat - (Text.lineBefore text stop).length), ?_, fun b hb => ?_⟩
  · rw [Text.slice_at, ← hshown, hbehind, List.take_append,
      List.take_of_length_le hlen, hbefore, List.append_assoc, List.cons_append]
  · obtain ⟨more, hmore⟩ := List.head?_eq_some_iff.mp hb
    obtain ⟨rest, hdrop⟩ := (List.take_prefix _ behind).trans hrest
    rw [hmore, List.cons_append] at hdrop
    exact h.not_isNameByte_behind b (by rw [← hdrop, List.head?_cons])

end StartsTag

end SvgAssist.Markup
