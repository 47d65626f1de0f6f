import SvgAssist.Diagnostic.Basic

/-!
# Rendered reports

A report as it is shown: a headline, every location with the source line it is on, underlined, and
the notes. `pieces` gives the text as the pieces in which it is written.
-/

namespace SvgAssist.Diagnostic

/-- A source line of this many bytes, or more, is not shown, nor is any line after it. -/
def maxLineSize : Nat := 65536

/-- The lines of a source file as they can be shown. A newline at the end begins no line. -/
def sourceLines (source : Text) : List Text :=
  let pieces := Text.lines source
  let pieces := if pieces.getLast? = some [] then pieces.dropLast else pieces
  (pieces.takeWhile fun line => line.length < maxLineSize).map Text.withoutReturn

def sourceLine? (read : Text → Option Text) (file : Text) (line : Int) : Option Text := do
  if line ≤ 0 || file = [] then none
  else
    let source ← read file
    (sourceLines source)[line.toNat - 1]?

def tabWidth : Nat := 4

def expandTabs (line : Text) : Text :=
  line.flatMap fun b => if b = Byte.tab then Text.spaces tabWidth else [b]

def displayWidth (text : Text) : Nat :=
  total ((Text.chars text).map fun d => if d.char = '\t' then tabWidth else 1)

def endsToken (d : Decoded) : Bool :=
  [' ', '\t', ',', ':', '\x7b', '\x7d', '[', ']', '<', '>', '"', '\'', '='].contains d.char

/-- The last column of the token that begins at a column, at least that column. -/
def tokenEnd (line : Text) (column : Nat) : Nat :=
  if line.length < column then column
  else
    let token := (Text.chars (line.drop (column - 1))).takeWhile (!endsToken ·)
    max column (column - 1 + total (token.map (·.width)))

def place (l : Location) : Text :=
  if 0 < l.line && 0 < l.column then
    l.file ++ utf8 ":" ++ Text.ofInt l.line ++ utf8 ":" ++ Text.ofInt l.column
  else if 0 < l.line then l.file ++ utf8 ":" ++ Text.ofInt l.line
  else l.file

/-- The columns of a line that are underlined: the blanks before them, and their number. -/
def underline (l : Location) (line : Text) : Nat × Nat :=
  let first := (max l.column 1).toNat
  let last := if l.lastColumn ≤ 0 then tokenEnd line first else l.lastColumn.toNat
  (if first - 1 ≤ line.length then displayWidth (line.take (first - 1)) else 0,
    max last first - first + 1)

def snippet (p : Palette) (l : Location) (line : Text) : List Text :=
  let number := Text.ofInt l.line
  let margin (mark : Text) := utf8 " " ++ p.gutter ++ mark ++ utf8 " |" ++ p.reset
  let blank := Text.spaces number.length
  let (indent, width) := underline l line
  [margin blank ++ utf8 "\n",
    margin number ++ utf8 "  " ++ expandTabs line ++ utf8 "\n",
    margin blank ++ utf8 "  " ++ Text.spaces indent ++ p.strong ++ Text.replicate width 0x5e ++
      p.reset] ++
  (if l.label = [] then [] else [utf8 " " ++ p.strong ++ l.label ++ p.reset]) ++
  [utf8 "\n" ++ margin blank ++ utf8 "\n"]

def locationPieces (p : Palette) (read : Text → Option Text) (l : Location) : List Text :=
  let head := utf8 "  " ++ p.gutter ++ utf8 "-->" ++ p.reset ++ utf8 " " ++ place l ++ utf8 "\n"
  match sourceLine? read l.file l.line with
  | none => [head, utf8 "   " ++ p.gutter ++ utf8 "|" ++ p.reset ++ utf8 "\n"]
  | some line => head :: snippet p l line

def pieces (p : Palette) (read : Text → Option Text) (r : Report) : List Text :=
  [p.ofSeverity r.severity ++ r.severity.label ++ p.reset ++ utf8 ": " ++ p.bold ++ r.message ++
    p.reset ++ utf8 "\n"] ++
  r.locations.flatMap (locationPieces p read) ++
  r.notes.map fun note =>
    utf8 "   " ++ p.note ++ utf8 "=" ++ p.reset ++ utf8 " note: " ++ note ++ utf8 "\n"

def rendered (p : Palette) (read : Text → Option Text) (r : Report) : Text :=
  (pieces p read r).flatten

end SvgAssist.Diagnostic
