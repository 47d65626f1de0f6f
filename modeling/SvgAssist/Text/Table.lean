import SvgAssist.Text.Char

/-!
# Tables of text

Lines whose cells end at tabs are aligned. A column goes through consecutive lines only, and a line
that has no cell in it starts the column anew. The last cell of a line belongs to no column.
-/

namespace SvgAssist.Text

/-- Whether a line has a cell in the first column: one that another cell follows. -/
def hasColumn (line : List Text) : Bool := 1 < line.length

/-- Aligns lines, each given by its cells, in at most `depth` columns. A column is wider than its
widest cell by `gap`. -/
def alignedLines (gap : Nat) : Nat → List (List Text) → List Text
  | 0, lines => lines.map List.flatten
  | depth + 1, lines =>
    (lines.splitBy fun a b => hasColumn a == hasColumn b).flatMap fun block =>
      if block.any hasColumn then
        let cells := block.map (·.headD [])
        let width := (cells.map charCount).foldl max 0 + gap
        let padded := cells.map fun cell => cell ++ spaces (width - charCount cell)
        padded.zipWith (· ++ ·) (alignedLines gap depth (block.map (·.drop 1)))
      else block.map List.flatten

/-- A text with its cells aligned. A cell ends at a tab, also at a vertical one, and a line at a
newline; a form feed ends a line and all columns. -/
def aligned (gap : Nat) (text : Text) : Text :=
  let sections := (pieces (· == Byte.formFeed) text).map fun part =>
    let lines := (Text.lines part).map (pieces fun b => b == Byte.tab || b == 0x0b)
    alignedLines gap ((lines.map List.length).foldl max 0) lines
  [Byte.newline].intercalate sections.flatten

end SvgAssist.Text
