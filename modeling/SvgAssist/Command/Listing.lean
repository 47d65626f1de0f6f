import SvgAssist.Completion.Candidate
import SvgAssist.Json.Writer
import SvgAssist.Text.Quoted
import SvgAssist.Text.Wrap

/-!
# Candidates on the command line

Candidates are printed for a reader, each with what it inserts and where the cursor goes, or as
JSON.
-/

namespace SvgAssist.Command

open Completion

def movementText (c : Completion.Command) : Text :=
  c.movement.label ++ utf8 " " ++ Text.ofInt c.offset ++
    (if c.valuesFollow then utf8 ", then complete values" else [])

def candidateText (c : Candidate) : Text :=
  c.label ++ utf8 " (" ++ c.kind.label ++ utf8 ")" ++
    (if c.detail = [] then [] else utf8 " " ++ c.detail) ++ utf8 "\n" ++
  utf8 "  insert: " ++ Text.quote c.text ++ utf8 "\n" ++
  (if c.command.movement = .none then []
    else utf8 "  cursor: " ++ movementText c.command ++ utf8 "\n") ++
  (if c.documentation = [] then [] else Text.paragraph 4 c.documentation ++ utf8 "\n")

def candidatesText (candidates : List Candidate) : Text :=
  if candidates = [] then utf8 "no completions\n"
  else (utf8 "\n").intercalate (candidates.map candidateText)

def positionJson (p : Position) : Json :=
  .record [("line", .ofInt p.line), ("character", .ofInt p.column)]

def movementJson (c : Completion.Command) : Json :=
  .record ([("kind", .string c.movement.label), ("offset", .ofInt c.offset)] ++
    (if c.valuesFollow then [("hasEnumFollowUp", .bool true)] else []))

/-- One candidate as JSON. Members that say nothing are left out. -/
def candidateJson (c : Candidate) : Json :=
  .record ([("label", .string c.label), ("kind", .string c.kind.label)] ++
    (if c.detail = [] then [] else [("detail", .string c.detail)]) ++
    (if c.documentation = [] then [] else [("documentation", .string c.documentation)]) ++
    [("insertText", .string c.text)] ++
    (c.edit.map fun e => ("range", .record [("start", positionJson e.range.start),
      ("end", positionJson e.range.stop)])).toList ++
    (if c.command.movement = .none then [] else [("command", movementJson c.command)]))

def candidatesJson (candidates : List Candidate) : Text :=
  Json.indented (.array (candidates.map candidateJson)) ++ utf8 "\n"

end SvgAssist.Command
