import SvgAssist.Position
import SvgAssist.Text.Quoted

/-!
# The cursor of a command

Where to complete: at a line and a column that are counted from one, or at the first mark in the
document, which is then taken out.
-/

namespace SvgAssist.Command

/-- What is said about the cursor. A line of zero, or below, leaves it to the mark. -/
structure CursorChoice where
  line : Int
  column : Int
  mark : Text
deriving DecidableEq, Repr

inductive CursorError where
  | columnTooSmall
  | pastEnd (line : Int) (count : Nat)
  | emptyMark
  | noMark (mark : Text)
deriving DecidableEq, Repr

def CursorError.message : CursorError → Text
  | .columnTooSmall => utf8 "--col must be at least 1"
  | .pastEnd line count =>
    utf8 "line " ++ Text.ofInt line ++ utf8 " is past the end of the document (" ++
      Text.ofNat count ++ utf8 " lines)"
  | .emptyMark => utf8 "--marker must not be empty"
  | .noMark mark =>
    utf8 "no position: pass --line and --col or mark the cursor with " ++ Text.quote mark

/-- The document without its mark, and the cursor in it. -/
def locate (text : Text) (choice : CursorChoice) : Except CursorError (Text × Position) :=
  if 0 < choice.line then
    if choice.column < 1 then .error .columnTooSmall
    else if (Text.lineCount text : Int) < choice.line then
      .error (.pastEnd choice.line (Text.lineCount text))
    else .ok (text, ⟨choice.line - 1, choice.column - 1⟩)
  else if choice.mark = [] then .error .emptyMark
  else match Text.indexOf choice.mark text with
    | none => .error (.noMark choice.mark)
    | some found =>
      let unmarked := text.take found ++ text.drop (found + choice.mark.length)
      .ok (unmarked, Text.positionAt unmarked found)

end SvgAssist.Command
