import SvgAssist.Grammar.FromJson
import SvgAssist.Grammar.FromYaml
import SvgAssist.Json.Reader
import SvgAssist.Path
import SvgAssist.Yaml.Read

/-!
# Loading grammars

A grammar file is JSON or YAML, by its extension. A file that cannot be decoded is reported with the
line and column of the trouble if they are known: JSON tells the byte, and YAML only names a line
somewhere in its message.
-/

namespace SvgAssist.Grammar

/-- How a grammar file is written. Formats are numbered; numbers without a meaning are kept. -/
inductive Format where
  | json
  | yaml
  | other (number : Int)
deriving DecidableEq, Repr

def Format.label : Format → Text
  | .json => utf8 "json"
  | .yaml => utf8 "yaml"
  | .other n => utf8 "Format(" ++ Text.ofInt n ++ utf8 ")"

def Format.ofPath? (path : Text) : Option Format :=
  let extension := Text.lowerAscii (Path.extension path)
  if extension = utf8 ".json" then some .json
  else if extension = utf8 ".yaml" || extension = utf8 ".yml" then some .yaml
  else none

inductive DecodeFault where
  | jsonSyntax (error : Json.SyntaxError)
  | json (fault : FromJson.Fault)
  | yamlSyntax (error : Yaml.SyntaxError)
  | yaml (fault : FromYaml.Fault)
deriving Repr

def DecodeFault.message : DecodeFault → Text
  | .jsonSyntax e => utf8 "decoding json schema: " ++ e.message
  | .json f => utf8 "decoding json schema: " ++ f.message
  | .yamlSyntax e => utf8 "decoding yaml schema: yaml: " ++ e.message
  | .yaml f => utf8 "decoding yaml schema: " ++ f.message

/-- The line and column, from one, of the last of `count` bytes of a text. -/
def offsetPosition (text : Text) (count : Nat) : Nat × Nat :=
  let head := text.take (min count text.length - 1)
  (head.count Byte.newline + 1, (head.reverse.takeWhile (· ≠ Byte.newline)).length + 1)

def maxLine : Nat := 0x7fffffffffffffff

/-- The number after the first `line ` in a message that has one, zero if none does. -/
def statedLine : Text → Nat
  | [] => 0
  | b :: rest =>
    let digits := ((b :: rest).drop 5).takeWhile Byte.isDigit
    if (utf8 "line ").isPrefixOf (b :: rest) && digits ≠ [] then
      min maxLine (digits.foldl (fun n d => n * 10 + (d.toNat - 0x30)) 0)
    else statedLine rest

def DecodeFault.position (text : Text) (fault : DecodeFault) : Nat × Nat :=
  match fault with
  | .jsonSyntax e => offsetPosition text e.count
  | .json _ => (0, 0)
  | .yamlSyntax _ | .yaml _ =>
    let line := statedLine fault.message
    (line, if line = 0 then 0 else 1)

/-- A text that could not be decoded. The path is empty when the text came from no file. -/
structure LoadError where
  path : Text
  line : Nat
  column : Nat
  fault : DecodeFault
deriving Repr

def LoadError.message (e : LoadError) : Text :=
  if e.path = [] then e.fault.message
  else if 0 < e.line then
    e.path ++ utf8 ":" ++ Text.ofNat e.line ++ utf8 ":" ++ Text.ofNat e.column ++ utf8 ": " ++
      e.fault.message
  else e.path ++ utf8 ": " ++ e.fault.message

inductive Failure where
  | decode (error : LoadError)
  | document (fault : Document.Fault)
  | unknownFormat (format : Format)
  | unsupported (extension : Text)
  | unreadable (path : Text) (fault : FileFault)
  | inFile (path : Text) (fault : Document.Fault)
deriving Repr

def Failure.message : Failure → Text
  | .decode e => e.message
  | .document fault => fault.message
  | .unknownFormat format => utf8 "unknown schema format " ++ format.label
  | .unsupported extension => utf8 "unsupported schema file extension " ++ Text.quote extension
  | .unreadable path .isDirectory => path ++ utf8 ": " ++ FileFault.isDirectory.message path
  | .unreadable path fault => fault.message path
  | .inFile path fault => path ++ utf8 ": " ++ fault.message

def Format.ofPath (path : Text) : Except Failure Format :=
  match Format.ofPath? path with
  | some format => .ok format
  | none => .error (.unsupported (Path.extension path))

def decodeJson (text : Text) : Except DecodeFault Document := do
  let v ← (Json.read text).mapError .jsonSyntax
  (FromJson.document v).mapError .json

def decodeYaml (text : Text) : Except DecodeFault Document := do
  let d ← (Yaml.read text).mapError .yamlSyntax
  (FromYaml.document d).mapError .yaml

def load (format : Format) (text : Text) : Except Failure Catalog :=
  let decoded := match format with
    | .json => some (decodeJson text)
    | .yaml => some (decodeYaml text)
    | .other _ => none
  match decoded with
  | none => .error (.unknownFormat format)
  | some (.error fault) =>
    let (line, column) := fault.position text
    .error (.decode ⟨[], line, column, fault⟩)
  | some (.ok document) => document.toCatalog.mapError .document

def loadFile (read : Text → Except FileFault Text) (path : Text) : Except Failure Catalog := do
  let format ← Format.ofPath path
  match read path with
  | .error fault => .error (.unreadable path fault)
  | .ok text =>
    match load format text with
    | .error (.decode e) => .error (.decode { e with path := path })
    | .error (.document fault) => .error (.inFile path fault)
    | result => result

end SvgAssist.Grammar
