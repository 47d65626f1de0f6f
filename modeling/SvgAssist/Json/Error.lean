import SvgAssist.Json.Basic
import SvgAssist.Text.Quoted

/-!
# JSON syntax errors

Where and why a document stops being JSON.
-/

namespace SvgAssist.Json

inductive Place where
  | value
  | key
  | afterKey
  | afterMember
  | afterItem
  | afterDocument
  | string
  | number
  | word (name : Text) (expected : UInt8)
deriving DecidableEq, Repr

def Place.message : Place → Text
  | .value => utf8 "looking for beginning of value"
  | .key => utf8 "looking for beginning of object key string"
  | .afterKey => utf8 "after object key"
  | .afterMember => utf8 "after object key:value pair"
  | .afterItem => utf8 "after array element"
  | .afterDocument => utf8 "after top-level value"
  | .string => utf8 "in string"
  | .number => utf8 "in numeric literal"
  | .word name expected =>
    utf8 "in literal " ++ name ++ utf8 " (expecting " ++ Text.quoteChar (Char.ofNat expected.toNat)
      ++ utf8 ")"

inductive Cause where
  | endOfInput
  | character (bytes : Text) (place : Place)
  | escape (bytes : Text)
  | tooDeep
deriving DecidableEq, Repr

def quotedHead (bytes : Text) : Text :=
  match bytes with
  | [] => []
  | b :: rest =>
    let d := Text.decodeHead b rest
    if d.isBad then utf8 "'\\x" ++ Text.hexDigits 2 b.toNat ++ utf8 "'" else Text.quoteChar d.char

/-- An escape between marks that do not occur in it: between double quotes, with all that does not
print spelled out, if it has a backquote or something that does not print. -/
def quotedEscape (bytes : Text) : Text :=
  let isPlain (d : Decoded) : Bool :=
    Text.isPrintable d.char && !(['\x60', ' ', Char.ofNat 0xfffd].contains d.char)
  if (Text.chars bytes).all isPlain then utf8 "\x60" ++ bytes ++ utf8 "\x60" else Text.quote bytes

def Cause.message : Cause → Text
  | .endOfInput => utf8 "unexpected end of JSON input"
  | .character bytes place =>
    utf8 "invalid character " ++ quotedHead bytes ++ utf8 " " ++ place.message
  | .escape bytes => utf8 "invalid escape sequence " ++ quotedEscape bytes ++ utf8 " in string"
  | .tooDeep => utf8 "exceeded max depth"

/-- A syntax error and the number of bytes read when it was found, the offending ones included. At
the end of the input, what it cuts short does not count. -/
structure SyntaxError where
  cause : Cause
  count : Nat
deriving DecidableEq, Repr

def SyntaxError.message (e : SyntaxError) : Text := e.cause.message

end SvgAssist.Json
