import SvgAssist.Completion.Complete
import SvgAssist.Proofs.Text.Ends

/-!
# Columns behind the end of a line

A column behind the end of its line leads to the end, but the characters next to it are looked for
in a window that is counted from the column itself. So the end of the line is seen only from a few
columns behind it (`column_behind_line_end`).
-/

namespace SvgAssist.Completion

open Grammar Markup Text

-- No context is told by a character that is not ASCII.
theorem classify_of_not_ascii {prev : Text} {b : UInt8} (hlast : prev.getLast? = some b)
    (hb : ¬ b < 0x80) (next : Text) : classify prev next = .none := by
  have hne {a : UInt8} (ha : a < 0x80) : prev ≠ [a] := by
    rintro rfl
    obtain rfl : a = b := by simpa using hlast
    exact hb ha
  have hless : prev ≠ utf8 "<" := hne (by decide)
  have hspace : prev ≠ utf8 " " := hne (by decide)
  have hquote : prev ≠ utf8 "\"" := hne (by decide)
  have hequals : prev ≠ utf8 "=" := hne (by decide)
  simp [classify, hless, hspace, hquote, hequals]

theorem classify_nil (next : Text) : classify [] next = .none := rfl

-- The labels are told by the context and by the text before the cursor.
theorem labels_complete_eq {text : Text} {a b : Position}
    (hcontext : classifyAt text a = classifyAt text b) (hbefore : before text a = before text b)
    (catalog : Catalog) (budget : Budget) :
    (complete catalog budget text a).map (·.label) =
      (complete catalog budget text b).map (·.label) := by
  rw [complete, complete, hcontext]
  split
  · simp only [tagCandidates, hbefore]
    split <;> rfl
  · rw [nameCandidates, nameCandidates, hbefore]
  · rw [enumCandidates, enumCandidates, hbefore]
  · rfl

section

variable {text : Text} {pos : Position} (hlow : 0 ≤ pos.line) (hline : pos.line < lineCount text)
  (hbehind : (line text pos.line).length ≤ pos.column)
include hlow hline hbehind

-- The window in front of the cursor reaches behind the line, so a part of the last character may be
-- cut off, or all of it.
theorem charBefore_behind_line_end :
    charBefore text pos =
      lastCharBytes ((line text pos.line).drop (pos.column.toNat - maxCharWidth)) := by
  rw [charBefore_on_line hlow hline, List.take_of_length_le (by omega)]

-- Behind the end of a line there is nothing to find.
theorem charAfter_behind_line_end : charAfter text pos = [] := by
  rw [charAfter_on_line hlow hline, List.drop_eq_nil_of_le]
  · rfl
  · exact (List.length_take_le' _ _).trans (by omega)

omit hlow hline in
theorem clamped_behind_line_end :
    clamped text pos = ⟨pos.line, ((line text pos.line).length : Nat)⟩ := by
  rw [clamped, Nat.min_eq_right (by omega)]

-- At the end of a line, all of its last character is in the window.
theorem charBefore_clamped :
    charBefore text (clamped text pos) = lastCharBytes (line text pos.line) := by
  rw [clamped_behind_line_end hbehind]
  have hend := @charBefore_inside text ⟨pos.line, ((line text pos.line).length : Nat)⟩
    hlow hline (Int.le_refl _)
  rwa [Int.toNat_natCast, List.take_length] at hend

theorem charAfter_clamped : charAfter text (clamped text pos) = [] := by
  rw [clamped_behind_line_end hbehind]
  exact charAfter_behind_line_end hlow hline (Int.le_refl _)

-- Clamping the position first makes no difference just when the line is empty or the window still
-- holds all of its last character.
theorem charBefore_behind_line_end_eq_iff :
    charBefore text pos = charBefore text (clamped text pos) ↔
      charBefore text (clamped text pos) = [] ∨
        pos.column + (charBefore text (clamped text pos)).length ≤
          (line text pos.line).length + maxCharWidth := by
  rw [charBefore_clamped hlow hline hbehind, charBefore_behind_line_end hlow hline hbehind,
    lastCharBytes_drop_eq_iff, lastCharBytes_eq_nil_iff, length_lastCharBytes]
  have hwidth := (lastCharWidth_le (line text pos.line)).1
  refine or_congr_right ?_
  omega

/-- The context is that at the end of the line as long as the last byte of the line is in the
window. -/
theorem classifyAt_behind_line_end :
    classifyAt text pos =
      if pos.column < (line text pos.line).length + maxCharWidth then
        classifyAt text (clamped text pos)
      else .none := by
  rw [classifyAt, classifyAt, charAfter_behind_line_end hlow hline hbehind,
    charAfter_clamped hlow hline hbehind, charBefore_clamped hlow hline hbehind,
    charBefore_behind_line_end hlow hline hbehind]
  split_ifs with hnear
  · set shown := line text pos.line
    by_cases hne : shown = []
    · rw [hne, List.drop_nil]
    obtain ⟨front, b, hsplit⟩ := (List.eq_nil_or_concat shown).resolve_left hne
    rw [List.concat_eq_append] at hsplit
    have hkept : pos.column.toNat - maxCharWidth ≤ front.length := by
      rw [hsplit, List.length_append, List.length_singleton] at hnear
      omega
    have hwindow : shown.drop (pos.column.toNat - maxCharWidth) =
        front.drop (pos.column.toNat - maxCharWidth) ++ [b] := by
      rw [hsplit, List.drop_append_of_le_length hkept]
    by_cases hascii : b < 0x80
    · rw [hwindow, hsplit, lastCharBytes_append_ascii _ hascii,
        lastCharBytes_append_ascii _ hascii]
    -- The character may be cut, but neither it nor its end tells a context.
    · have hlast (t : Text) : (lastCharBytes (t ++ [b])).getLast? = some b := by
        rw [getLast?_lastCharBytes, List.getLast?_concat]
      rw [hwindow, hsplit, classify_of_not_ascii (hlast _) hascii,
        classify_of_not_ascii (hlast _) hascii]
  · rw [List.drop_eq_nil_of_le (by omega), lastCharBytes_nil, classify_nil]

end

/-- Nothing stands behind a column that is not in front of the end of its line. In front of it
stands the last character of the line, as long as all of that is in the window. The context is that
at the end of the line, and the same labels are proposed, as long as the window holds anything;
farther behind there is no context. -/
theorem column_behind_line_end (text : Text) (pos : Position) (hlow : 0 ≤ pos.line)
    (hline : pos.line < lineCount text) (hcolumn : 0 ≤ pos.column) :
    charAfter text pos = charAfter text (clamped text pos) ∧
      (charBefore text pos = charBefore text (clamped text pos) ↔
        charBefore text (clamped text pos) = [] ∨
          pos.column + (charBefore text (clamped text pos)).length ≤
            (line text pos.line).length + maxCharWidth) ∧
      (pos.column < (line text pos.line).length + maxCharWidth →
        classifyAt text pos = classifyAt text (clamped text pos) ∧
        ∀ catalog budget, (complete catalog budget text pos).map (·.label) =
          (complete catalog budget text (clamped text pos)).map (·.label)) ∧
      ((line text pos.line).length + maxCharWidth ≤ pos.column →
        classifyAt text pos = .none ∧ ∀ catalog budget, complete catalog budget text pos = []) := by
  rcases Int.le_total (line text pos.line).length pos.column with hbehind | hinside
  · have hcontext := classifyAt_behind_line_end hlow hline hbehind
    refine ⟨?_, charBefore_behind_line_end_eq_iff hlow hline hbehind, fun hnear => ?_,
      fun hfar => ?_⟩
    · rw [charAfter_behind_line_end hlow hline hbehind, charAfter_clamped hlow hline hbehind]
    · rw [if_pos hnear] at hcontext
      have hbefore : before text pos = before text (clamped text pos) := by
        rw [before_eq_take, before_eq_take, offset_clamped]
      exact ⟨hcontext, labels_complete_eq hcontext hbefore⟩
    · rw [if_neg (by omega)] at hcontext
      refine ⟨hcontext, fun catalog budget => ?_⟩
      rw [complete, hcontext]
  · rw [clamped_of_le hcolumn hinside]
    have hwidth : (charBefore text pos).length ≤ maxCharWidth := by
      rw [charBefore_on_line hlow hline, length_lastCharBytes]
      exact (lastCharWidth_le _).2
    have hmax : maxCharWidth = 4 := rfl
    exact ⟨rfl, iff_of_true rfl (.inr (by omega)), fun _ => ⟨rfl, fun _ _ => rfl⟩,
      fun hfar => by omega⟩

/-- Three columns behind it a character of two bytes is cut. Four behind it a `<` is not seen. -/
theorem column_behind_line_end_less :
    let text := utf8 "é\n<"
    charBefore text ⟨0, 4⟩ = utf8 "é" ∧ charBefore text ⟨0, 5⟩ ≠ utf8 "é" ∧
      classifyAt text ⟨1, 4⟩ = .tagOpen ∧ classifyAt text ⟨1, 5⟩ = .none := by
  intro text
  have hwhole : charBefore text (clamped text ⟨0, 4⟩) = utf8 "é" := by decide
  have hcut : charBefore text (clamped text ⟨0, 5⟩) = utf8 "é" := by decide
  have hless : classifyAt text (clamped text ⟨1, 4⟩) = .tagOpen := by decide
  obtain ⟨-, hbefore, -⟩ :=
    column_behind_line_end text ⟨0, 4⟩ (by decide) (by decide) (by decide)
  obtain ⟨-, hbehind, -⟩ :=
    column_behind_line_end text ⟨0, 5⟩ (by decide) (by decide) (by decide)
  obtain ⟨-, -, hnear, -⟩ :=
    column_behind_line_end text ⟨1, 4⟩ (by decide) (by decide) (by decide)
  obtain ⟨-, -, -, hfar⟩ :=
    column_behind_line_end text ⟨1, 5⟩ (by decide) (by decide) (by decide)
  rw [hwhole] at hbefore
  rw [hcut] at hbehind
  exact ⟨hbefore.mpr (by decide), mt hbehind.mp (by decide), (hnear (by decide)).1.trans hless,
    (hfar (by decide)).1⟩

/-- Four columns behind a `<` that ends its line, nothing is proposed. -/
theorem context_lost_behind_line_end :
    let text := utf8 "<"
    let pos : Position := ⟨0, 5⟩
    0 ≤ pos.line ∧ pos.line < lineCount text ∧ 0 ≤ pos.column ∧
      charBefore text pos ≠ charBefore text (clamped text pos) ∧
      classifyAt text pos ≠ classifyAt text (clamped text pos) ∧
      ∀ catalog budget, (complete catalog budget text pos).map (·.label) = [] ∧
        (complete catalog budget text (clamped text pos)).map (·.label) = [utf8 "svg"] := by
  intro text pos
  refine ⟨by decide, by decide, by decide, by decide, by decide, fun catalog budget => ⟨?_, ?_⟩⟩
  · have hcontext : classifyAt text pos = .none := by decide
    rw [complete, hcontext, List.map_nil]
  · have hcontext : classifyAt text (clamped text pos) = .tagOpen := by decide
    have htag : precedingTag (before text (clamped text pos)) = none := by decide
    rw [complete, hcontext]
    simp only [tagCandidates, htag]
    rfl

end SvgAssist.Completion
