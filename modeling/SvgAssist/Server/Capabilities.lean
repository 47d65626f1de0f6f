import SvgAssist.Json.Shape

/-!
# What a client tells at the start

The parameters that a session begins with. Nothing of what a client says about itself and about what
it can do makes a difference to the answers, but all of it has to be well formed.
-/

namespace SvgAssist.Server

open Json (Shape)

namespace Capabilities

def flags (names : List String) : Shape := .record (names.map fun name => (name, .flag))

def flagFields (names : List String) : List (String × Shape) := names.map fun name => (name, .flag)

def dynamic : Shape := flags ["dynamicRegistration"]

def linked : Shape := flags ["dynamicRegistration", "linkSupport"]

def valueSet (shape : Shape) : Shape := .record [("valueSet", .list shape)]

def properties : Shape := .record [("properties", .list .text)]

def completionItem : Shape :=
  .record (flagFields ["snippetSupport", "commitCharactersSupport", "deprecatedSupport",
      "preselectSupport", "insertReplaceSupport"] ++
    [("documentationFormat", .list .text), ("tagSupport", valueSet .int32),
      ("resolveSupport", properties), ("insertTextModeSupport", valueSet .int32)])

def signature : Shape :=
  .record [("documentationFormat", .list .text),
    ("parameterInformation", flags ["labelOffsetSupport"]), ("activeParameterSupport", .flag)]

def semanticTokens : Shape :=
  .record (flagFields ["dynamicRegistration", "overlappingTokenSupport", "multilineTokenSupport"] ++
    [("requests",
        .record [("range", .flagOrRecord []), ("full", .flagOrRecord [("delta", .flag)])]),
      ("tokenTypes", .list .text), ("tokenModifiers", .list .text), ("formats", .list .text)])

def textDocument : Shape := .record [
  ("synchronization", flags ["dynamicRegistration", "willSave", "willSaveWaitUntil", "didSave"]),
  ("completion", .record (flagFields ["dynamicRegistration", "contextSupport"] ++
    [("completionItem", completionItem), ("completionItemKind", valueSet .int32)])),
  ("hover", .record [("dynamicRegistration", .flag), ("contentFormat", .list .text)]),
  ("signatureHelp", .record (flagFields ["dynamicRegistration", "contextSupport"] ++
    [("signatureInformation", signature)])),
  ("declaration", linked),
  ("definition", linked),
  ("typeDefinition", linked),
  ("implementation", linked),
  ("references", dynamic),
  ("documentHighlight", dynamic),
  ("documentSymbol", .record (flagFields ["dynamicRegistration",
      "hierarchicalDocumentSymbolSupport", "labelSupport"] ++
    [("symbolKind", valueSet .int32), ("tagSupport", valueSet .int32)])),
  ("codeAction", .record (flagFields ["dynamicRegistration", "isPreferredSupport",
      "disabledSupport", "dataSupport", "honorsChangeAnnotations"] ++
    [("codeActionLiteralSupport", .record [("codeActionKind", valueSet .text)]),
      ("resolveSupport", properties)])),
  ("codeLens", dynamic),
  ("documentLink", flags ["dynamicRegistration", "tooltipSupport"]),
  ("colorProvider", dynamic),
  ("formatting", dynamic),
  ("rangeFormatting", dynamic),
  ("onTypeFormatting", dynamic),
  ("rename", .record (flagFields ["dynamicRegistration", "prepareSupport",
      "honorsChangeAnnotations"] ++ [("prepareSupportDefaultBehavior", .int32)])),
  ("publishDiagnostics", .record (flagFields ["relatedInformation", "versionSupport",
      "codeDescriptionSupport", "dataSupport"] ++ [("tagSupport", valueSet .int32)])),
  ("foldingRange", .record (flagFields ["dynamicRegistration", "lineFoldingOnly"] ++
    [("rangeLimit", .uint32)])),
  ("selectionRange", dynamic),
  ("linkedEditingRange", dynamic),
  ("callHierarchy", dynamic),
  ("semanticTokens", semanticTokens),
  ("moniker", dynamic)]

def workspace : Shape := .record [
  ("applyEdit", .flag),
  ("workspaceEdit", .record [("documentChanges", .flag), ("resourceOperations", .list .text),
    ("failureHandling", .text), ("normalizesLineEndings", .flag),
    ("changeAnnotationSupport", flags ["groupsOnLabel"])]),
  ("didChangeConfiguration", dynamic),
  ("didChangeWatchedFiles", dynamic),
  ("symbol", .record [("dynamicRegistration", .flag), ("symbolKind", valueSet .int32),
    ("tagSupport", valueSet .int32)]),
  ("executeCommand", dynamic),
  ("workspaceFolders", .flag),
  ("configuration", .flag),
  ("semanticTokens", flags ["refreshSupport"]),
  ("codeLens", flags ["refreshSupport"]),
  ("fileOperations", flags ["dynamicRegistration", "didCreate", "willCreate", "didRename",
    "willRename", "didDelete", "willDelete"])]

def window : Shape := .record [
  ("workDoneProgress", .flag),
  ("showMessage", .record [("messageActionItem", flags ["additionalPropertiesSupport"])]),
  ("showDocument", flags ["support"])]

def general : Shape := .record [
  ("regularExpressions", .record [("engine", .text), ("version", .text)]),
  ("markdown", .record [("parser", .text), ("version", .text)])]

def client : Shape := .record [
  ("workDoneToken", .numberOrText),
  ("processId", .int32),
  ("clientInfo", .record [("name", .text), ("version", .text)]),
  ("locale", .text),
  ("rootPath", .text),
  ("rootUri", .text),
  ("capabilities", .record [("workspace", workspace), ("textDocument", textDocument),
    ("window", window), ("general", general)]),
  ("trace", .text),
  ("workspaceFolders", .list (.record [("uri", .text), ("name", .text)]))]

end Capabilities

end SvgAssist.Server
