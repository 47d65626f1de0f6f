import SvgAssist.Markup.Context
import SvgAssist.Proofs.Text.Ends

/-!
# The context at a column

The context at a column of a line is told by the characters next to the column, however many bytes
they take and whether or not the line is UTF-8 (`neighbours_in_window`).
-/

namespace SvgAssist.Markup

open Text

/-- The window around a column holds the last of the characters in front of the column and the first
of those behind it, or nothing where there is none, and they tell the context. The window ends a few
bytes behind the column, at a 64-bit number in every line that fits into memory. -/
theorem neighbours_in_window (text : Text) (pos : Position) (hlow : 0 ≤ pos.line)
    (hline : pos.line < lineCount text) (hcolumn : 0 ≤ pos.column)
    (hend : pos.column ≤ (line text pos.line).length) :
    let prev := (charBytes ((line text pos.line).take pos.column.toNat)).getLast?.getD []
    let next := (charBytes ((line text pos.line).drop pos.column.toNat)).head?.getD []
    charBefore text pos = prev ∧
      (pos.column + maxCharWidth < 2 ^ 63 →
        charAfter text pos = next ∧ classifyAt text pos = classify prev next) := by
  intro prev next
  have hprev : charBefore text pos = prev := by
    rw [charBefore_inside hlow hline hend, lastCharBytes_eq]
  refine ⟨hprev, fun hword => ?_⟩
  have hnext : charAfter text pos = next := by
    rw [charAfter_inside hlow hline hcolumn hword, firstCharBytes_eq]
  refine ⟨hnext, ?_⟩
  rw [classifyAt, hprev, hnext]

/-- Between a byte that belongs to no character and a character of three bytes, and behind a `<` in
front of a carriage return that the line gives up. -/
theorem neighbours_in_window_euro :
    let text := utf8 "é" ++ 0x82 :: utf8 "€<\r\n"
    (charBytes ((line text 0).take 3)).getLast?.getD [] = [0x82] ∧
      (charBytes ((line text 0).drop 3)).head?.getD [] = utf8 "€" ∧
      (charBytes ((line text 0).drop 7)).head?.getD [] = [] ∧
      classify ((charBytes ((line text 0).take 7)).getLast?.getD []) [] = .tagOpen := by
  intro text
  obtain ⟨hinvalid, hbehind⟩ :=
    neighbours_in_window text ⟨0, 3⟩ (by decide) (by decide) (by decide) (by decide)
  obtain ⟨heuro, -⟩ := hbehind (by decide)
  obtain ⟨-, hlast⟩ :=
    neighbours_in_window text ⟨0, 7⟩ (by decide) (by decide) (by decide) (by decide)
  obtain ⟨hnone, hcontext⟩ := hlast (by decide)
  have hafter : charAfter text ⟨0, 7⟩ = [] := by decide
  rw [← hnone, hafter] at hcontext
  exact ⟨hinvalid.symm.trans (by decide), heuro.symm.trans (by decide),
    hnone.symm.trans hafter, hcontext.symm.trans (by decide)⟩

end SvgAssist.Markup
