import SvgAssist.Completion.Complete
import SvgAssist.Proofs.Text.Columns

/-!
# Accepting a candidate

An author who accepts a candidate gets its text at the cursor, and the cursor goes from the end of
it where the command says. A cursor that is moved to the left over ASCII characters of its line
comes to the offset in front of them (`move_left`).
-/

namespace SvgAssist.Completion

open Text

/-- The text after a candidate was accepted at an offset. -/
def Candidate.accept (c : Candidate) (text : Text) (o : Nat) : Text :=
  text.take o ++ (c.text ++ text.drop o)

/-- The cursor after a command. To the left and to the right it goes over characters of its line,
up it keeps its column. -/
def Command.move (command : Command) (text : Text) (pos : Position) : Position :=
  let line := line text pos.line
  match command.movement with
  | .left =>
    let before := chars (line.take pos.column.toNat)
    ⟨pos.line, total ((before.take (before.length - command.offset.toNat)).map (·.width))⟩
  | .up => ⟨pos.line - command.offset, pos.column⟩
  | .right =>
    let behind := chars (line.drop pos.column.toNat)
    ⟨pos.line, pos.column + total ((behind.take command.offset.toNat).map (·.width))⟩
  | .none | .unknown => pos

/-- Where the cursor goes after a candidate was accepted at an offset. -/
def Candidate.cursor (c : Candidate) (text : Text) (o : Nat) : Position :=
  c.command.move (c.accept text o) (positionAt (c.accept text o) (o + c.text.length : Nat))

-- What stands in front of the place and the accepted text itself are the front of the new text.
theorem take_accept (c : Candidate) {text : Text} {o : Nat} (ho : o ≤ text.length) :
    (c.accept text o).take (o + c.text.length) = text.take o ++ c.text := by
  have hlen : o + c.text.length = (text.take o ++ c.text).length := by
    rw [List.length_append, List.length_take, Nat.min_eq_left ho]
  rw [Candidate.accept, hlen, ← List.append_assoc, List.take_left]

def widthBefore (text : Text) (n : Nat) : Nat :=
  total (((chars text).take ((chars text).length - n)).map (·.width))

-- ASCII bytes are passed over one by one.
theorem widthBefore_append (front : Text) {tail : Text} (htail : ∀ b ∈ tail, b < 0x80) :
    widthBefore (front ++ tail) tail.length = front.length := by
  unfold widthBefore
  rw [chars_append_of_ascii front htail, List.length_append, List.length_map, Nat.add_sub_cancel,
    List.take_left, total_width_chars]

theorem widthBefore_of_ascii (front : Text) {tail : Text} (htail : ∀ b ∈ tail, b < 0x80) {n : Nat}
    (hn : n ≤ tail.length) : widthBefore (front ++ tail) n = front.length + (tail.length - n) := by
  have hpassed : (tail.drop (tail.length - n)).length = n := by
    rw [List.length_drop]
    omega
  have hkept : (tail.take (tail.length - n)).length = tail.length - n := by
    rw [List.length_take]
    omega
  have hascii : ∀ b ∈ tail.drop (tail.length - n), b < 0x80 := fun b hb =>
    htail b (List.mem_of_mem_drop hb)
  have hwidth := widthBefore_append (front ++ tail.take (tail.length - n)) hascii
  rwa [hpassed, List.append_assoc, List.take_append_drop, List.length_append, hkept] at hwidth

-- In front of an ASCII text with no more characters there is nothing.
theorem widthBefore_eq_zero {text : Text} (htext : ∀ b ∈ text, b < 0x80) {n : Nat}
    (hn : text.length ≤ n) : widthBefore text n = 0 := by
  have hchars := chars_append_of_ascii [] htext
  rw [List.nil_append, chars_nil, List.nil_append] at hchars
  rw [widthBefore, hchars, List.length_map, Nat.sub_eq_zero_of_le hn]
  rfl

-- To the left a command stays on its line.
theorem move_of_left {command : Command} (hmove : command.movement = .left) (text : Text)
    (pos : Position) : command.move text pos =
      ⟨pos.line,
        widthBefore ((line text pos.line).take pos.column.toNat) command.offset.toNat⟩ := by
  unfold Command.move
  rw [hmove]
  rfl

-- Over ASCII characters that end no line it goes back as many bytes as it counts.
theorem move_left {command : Command} {text : Text} {o n : Nat} (hmove : command.movement = .left)
    (hcount : command.offset = n) (hlen : o + n ≤ text.length)
    (hplain : Plain ((text.drop o).take n)) (hafter : ¬ AfterReturn text (o + n)) :
    command.move text (positionAt text (o + n : Nat)) = positionAt text o := by
  have hline := hplain.newline_notMem
  have hbefore := take_line hafter
  have hwidth : ((text.drop o).take n).length = n := by
    rw [List.length_take, List.length_drop]
    omega
  have hpassed := widthBefore_append (lineBefore text o) hplain.ascii
  rw [lineBefore_add hline, count_take_add hline] at hbefore
  rw [hwidth] at hpassed
  rw [move_of_left hmove, positionAt_natCast, positionAt_natCast, lineBefore_add hline,
    count_take_add hline]
  simp only [hcount, Int.toNat_natCast]
  rw [hbefore, hpassed]

/-- A candidate whose cursor goes back over the last ASCII characters of its text leaves it in front
of them. -/
theorem between_left {c : Candidate} {text body passed : Text} {o : Nat} (ho : o ≤ text.length)
    (htext : c.text = body ++ passed) (hmove : c.command.movement = .left)
    (hcount : c.command.offset = passed.length) (hne : passed ≠ [])
    (hplain : Plain passed) :
    Between (c.accept text o) (c.cursor text o) (text.take o ++ body)
      (passed ++ text.drop o) := by
  have haccept : c.accept text o = text.take o ++ body ++ (passed ++ text.drop o) := by
    rw [Candidate.accept, htext]
    simp only [List.append_assoc]
  refine ⟨haccept, ?_⟩
  obtain ⟨front, hfront⟩ : ∃ front, front = text.take o ++ body := ⟨_, rfl⟩
  rw [← hfront] at haccept ⊢
  have hstop : o + c.text.length = front.length + passed.length := by
    rw [htext, hfront, List.length_append, List.length_append, List.length_take, Nat.min_eq_left ho,
      Nat.add_assoc]
  have hover : ((c.accept text o).drop front.length).take passed.length = passed := by
    rw [haccept, List.drop_left, List.take_left]
  -- The last character passed over is no carriage return.
  have hafter : ¬ AfterReturn (c.accept text o) (front.length + passed.length) := by
    obtain ⟨init, last, rfl⟩ : ∃ init last, passed = init ++ [last] :=
      ⟨_, _, (List.dropLast_concat_getLast hne).symm⟩
    have hlast : (c.accept text o)[front.length + init.length]? = some last := by
      rw [haccept, List.getElem?_append_right (Nat.le_add_right _ _)]
      simp
    rw [List.length_append, ← Nat.add_assoc]
    exact not_afterReturn_of_getElem? hlast (hplain last (by simp)).2.2
  rw [Candidate.cursor, hstop]
  refine move_left hmove hcount ?_ (hover.symm ▸ hplain) hafter
  rw [haccept]
  simp only [List.length_append]
  omega

end SvgAssist.Completion
