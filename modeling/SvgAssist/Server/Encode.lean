import SvgAssist.Server.Session

/-!
# Answers as JSON

The form of each answer on the wire. Members that say nothing are left out.
-/

namespace SvgAssist.Server

open Json

def ClientPosition.toJson (p : ClientPosition) : Json :=
  .record [("line", .ofNat p.line.toNat), ("character", .ofNat p.character.toNat)]

def ClientRange.toJson (r : ClientRange) : Json :=
  .record [("start", r.start.toJson), ("end", r.stop.toJson)]

def markdown (text : Text) : Json :=
  .record [("kind", .ofString "markdown"), ("value", .string text)]

def unlessEmpty (name : String) (text : Text) (value : Json) : List (String × Json) :=
  if text = [] then [] else [(name, value)]

def ClientCommand.toJson (c : ClientCommand) : Json :=
  .record ([("title", .string c.title), ("command", .string c.command)] ++
    (if c.arguments.isEmpty then [] else [("arguments", .array c.arguments)]))

def Insertion.member : Insertion → String × Json
  | .atCursor text => ("insertText", .string text)
  | .replace range text =>
    ("textEdit", .record [("range", range.toJson), ("newText", .string text)])

def Item.toJson (i : Item) : Json :=
  .record ([("label", .string i.label), ("kind", .ofNat i.kind)] ++
    unlessEmpty "detail" i.detail (.string i.detail) ++
    unlessEmpty "documentation" i.documentation (markdown i.documentation) ++
    [i.insertion.member] ++ (i.command.map fun c => ("command", c.toJson)).toList)

def ClientHover.toJson (h : ClientHover) : Json :=
  .record [("contents", markdown h.contents), ("range", h.range.toJson)]

def Fold.toJson (f : Fold) : Json :=
  .record [("startLine", .ofNat f.startLine.toNat), ("endLine", .ofNat f.endLine.toNat),
    ("kind", .string f.kind.label)]

def symbolKind : Nat := 5

mutual

def Symbol.toJson : Symbol → Json
  | .mk name detail range selection children =>
    .record ([("name", .string name)] ++ unlessEmpty "detail" detail (.string detail) ++
      [("kind", .ofNat symbolKind), ("range", range.toJson),
        ("selectionRange", selection.toJson)] ++
      match Symbol.allToJson children with
      | [] => []
      | inside => [("children", .array inside)])

def Symbol.allToJson : List Symbol → List Json
  | [] => []
  | s :: more => s.toJson :: Symbol.allToJson more

end

def capabilities : Json :=
  .record [
    ("capabilities", .record [
      ("textDocumentSync", .record [("openClose", .bool true), ("change", .ofNat 1)]),
      ("completionProvider", .record [
        ("triggerCharacters", .array (["<", " ", "\"", "="].map .ofString))]),
      ("hoverProvider", .bool true),
      ("documentSymbolProvider", .bool true),
      ("foldingRangeProvider", .bool true)]),
    ("serverInfo", .record [("name", .ofString "svgls"), ("version", .ofString "0.1.0")])]

def Answer.toJson : Answer → Json
  | .nothing => .null
  | .capabilities => Server.capabilities
  | .items is => .array (is.map Item.toJson)
  | .hover h => h.toJson
  | .folds fs => .array (fs.map Fold.toJson)
  | .symbols ss => .array (Symbol.allToJson ss)

end SvgAssist.Server
