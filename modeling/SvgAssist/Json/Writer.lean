import SvgAssist.Json.Basic
import SvgAssist.Text.Quoted

/-!
# Writing JSON

Two layouts: `compact` on one line, and `indented` with every item and member on a line of its own.
Characters that matter to markup, and the two line separators of Unicode, are written as numeric
escapes in both, so that the output can be embedded anywhere.
-/

namespace SvgAssist.Json

def numericEscape (n : Nat) : Text := utf8 "\\u" ++ Text.hexDigits 4 n

def escapeChar (d : Decoded) : Text :=
  let n := d.char.toNat
  if d.char = '"' || d.char = '\\' then Byte.backslash :: Text.ofChar d.char
  else if n = 0x08 then utf8 "\\b"
  else if n = 0x0c then utf8 "\\f"
  else if n = 0x0a then utf8 "\\n"
  else if n = 0x0d then utf8 "\\r"
  else if n = 0x09 then utf8 "\\t"
  else if n < 0x20 || d.char = '<' || d.char = '>' || d.char = '&' || n = 0x2028 || n = 0x2029 then
    numericEscape n
  else if d.isBad then numericEscape 0xfffd
  else Text.ofChar d.char

def quoted (text : Text) : Text :=
  utf8 "\"" ++ (Text.chars text).flatMap escapeChar ++ utf8 "\""

def joined (separator : Text) (pieces : List Text) : Text := separator.intercalate pieces

mutual

/-- A value on one line, without blanks, in front of `tail`. -/
def compactOnto (tail : Text) : Json → Text
  | .null => utf8 "null" ++ tail
  | .bool true => utf8 "true" ++ tail
  | .bool false => utf8 "false" ++ tail
  | .number literal => literal ++ tail
  | .string text => quoted text ++ tail
  | .array items => 0x5b :: itemsOnto (0x5d :: tail) items
  | .object members => 0x7b :: membersOnto (0x7d :: tail) members

def itemsOnto (tail : Text) : List Json → Text
  | [] => tail
  | [item] => compactOnto tail item
  | item :: items => compactOnto (0x2c :: itemsOnto tail items) item

def membersOnto (tail : Text) : List (Text × Json) → Text
  | [] => tail
  | [(key, value)] => quoted key ++ Byte.colon :: compactOnto tail value
  | (key, value) :: members =>
    quoted key ++ Byte.colon :: compactOnto (0x2c :: membersOnto tail members) value

end

def compact (value : Json) : Text := compactOnto [] value

def lineBreak (level : Nat) : Text := Byte.newline :: Text.spaces (2 * level)

/-- The pieces of a container on lines of their own, between its brackets. An empty container stays
on one line. -/
def block (level : Nat) (opening closing : Text) (pieces : List Text) : Text :=
  if pieces = [] then opening ++ closing
  else
    opening ++ lineBreak (level + 1) ++ joined (utf8 "," ++ lineBreak (level + 1)) pieces ++
      lineBreak level ++ closing

mutual

def indentedAt (level : Nat) : Json → Text
  | .array items => block level (utf8 "[") (utf8 "]") (indentedItems (level + 1) items)
  | .object members =>
    block level (utf8 "\x7b") (utf8 "\x7d") (indentedMembers (level + 1) members)
  | .null => utf8 "null"
  | .bool true => utf8 "true"
  | .bool false => utf8 "false"
  | .number literal => literal
  | .string text => quoted text

def indentedItems (level : Nat) : List Json → List Text
  | [] => []
  | item :: items => indentedAt level item :: indentedItems level items

def indentedMembers (level : Nat) : List (Text × Json) → List Text
  | [] => []
  | (key, value) :: members =>
    (quoted key ++ utf8 ": " ++ indentedAt level value) :: indentedMembers level members

end

def indented (value : Json) : Text := indentedAt 0 value

end SvgAssist.Json
