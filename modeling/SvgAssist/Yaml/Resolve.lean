import SvgAssist.Number.Double
import SvgAssist.Number.Whole
import SvgAssist.Text.Base64
import SvgAssist.Yaml.Timestamp

/-!
# What scalars stand for

A plain scalar without a tag stands for nothing, a truth value, a number, a timestamp or its own
text, by how it is written. One of the standard tags may ask for one of these, and is refused when
the text is not written so. With any other tag a scalar stands for its text.
-/

namespace SvgAssist.Yaml

open Number (Double digitsIn? anyBase? signed? unsigned?)

/-- What a scalar stands for. Bytes are given by a text that encodes them. -/
inductive Resolved where
  | null
  | bool (value : Bool)
  | int (value : Int)
  | float (value : Double)
  | timestamp (value : Timestamp)
  | text
  | bytes (value : Text)
deriving DecidableEq, Repr

def strTag : Text := utf8 "!!str"

def nullTag : Text := utf8 "!!null"

def boolTag : Text := utf8 "!!bool"

def intTag : Text := utf8 "!!int"

def floatTag : Text := utf8 "!!float"

def timestampTag : Text := utf8 "!!timestamp"

def binaryTag : Text := utf8 "!!binary"

def mergeTag : Text := utf8 "!!merge"

def Resolved.tag : Resolved → Text
  | .null => nullTag
  | .bool _ => boolTag
  | .int _ => intTag
  | .float _ => floatTag
  | .timestamp _ => timestampTag
  | .text => strTag
  | .bytes _ => binaryTag

def words : List (String × Resolved) :=
  [("", .null), ("~", .null), ("null", .null), ("Null", .null), ("NULL", .null),
    ("true", .bool true), ("True", .bool true), ("TRUE", .bool true),
    ("false", .bool false), ("False", .bool false), ("FALSE", .bool false),
    (".nan", .float .nan), (".NaN", .float .nan), (".NAN", .float .nan),
    (".inf", .float (.infinite false)), (".Inf", .float (.infinite false)),
    (".INF", .float (.infinite false)), ("+.inf", .float (.infinite false)),
    ("+.Inf", .float (.infinite false)), ("+.INF", .float (.infinite false)),
    ("-.inf", .float (.infinite true)), ("-.Inf", .float (.infinite true)),
    ("-.INF", .float (.infinite true))]

def withoutUnderscores (text : Text) : Text := text.filter (· ≠ Byte.underscore)

def behind? (mark : String) (text : Text) : Option Text :=
  if (utf8 mark).isPrefixOf text then some (text.drop (utf8 mark).length) else none

def oddlySigned? (mark : String) (base : Nat) (text : Text) : Option Int :=
  (behind? mark text).bind fun rest =>
    (signed? (digitsIn? base) rest).or (unsigned? (digitsIn? base) rest)

def int? (text : Text) : Option Int :=
  (signed? anyBase? text).or (unsigned? anyBase? text)

def separatesDigits (afterDigit : Bool) : Text → Bool
  | [] => true
  | b :: rest =>
    if b = Byte.underscore then
      afterDigit && rest.head?.any Byte.isDigit && separatesDigits false rest
    else separatesDigits (Byte.isDigit b) rest

def resolveNumber (text : Text) : Resolved :=
  let plain := withoutUnderscores text
  match int? plain with
  | some n => .int n
  | none =>
    match Double.ofText? plain with
    | some d => .float d
    | none =>
      match (oddlySigned? "0b" 2 plain).or (oddlySigned? "0o" 8 plain) with
      | some n => .int n
      | none => .text

def resolveText (timestamps : Bool) (text : Text) : Resolved :=
  match words.find? fun (w, _) => utf8 w == text with
  | some (_, r) => r
  | none =>
    match text with
    | [] => .text
    | b :: _ =>
      if b = Byte.dot then
        if separatesDigits false text then
          ((Double.ofText? (withoutUnderscores text)).map .float).getD .text
        else .text
      else if Byte.isDigit b || b = 0x2b || b = Byte.hyphen then
        match if timestamps then Timestamp.ofText? text else none with
        | some t => .timestamp t
        | none => resolveNumber text
      else .text

def resolvePlain (text : Text) : Resolved := resolveText true text

inductive ScalarFault where
  | wrongTag (actual text wanted : Text)
  | base64
deriving DecidableEq, Repr

def ScalarFault.message : ScalarFault → Text
  | .wrongTag actual text wanted =>
    utf8 "yaml: cannot decode " ++ actual ++ utf8 " \x60" ++ text ++ utf8 "\x60 as a " ++ wanted
  | .base64 => utf8 "yaml: !!binary value contains invalid base64 data"

/-- What a text with a tag in its short form stands for. A whole number is a decimal number too, as
long as it fits 63 bits. -/
def resolve (tag text : Text) : Except ScalarFault Resolved :=
  if tag = binaryTag then
    match Text.Base64.decode? text with
    | some bytes => .ok (.bytes bytes)
    | none => .error .base64
  else if [nullTag, boolTag, intTag, floatTag, timestampTag].contains tag then
    let r := resolveText (tag = timestampTag) text
    if r.tag = tag then .ok r
    else
      match r with
      | .int n =>
        if tag = floatTag && n < Number.twoTo63 then .ok (.float (.ofInt n))
        else .error (.wrongTag r.tag text tag)
      | _ => .error (.wrongTag r.tag text tag)
  else .ok .text

end SvgAssist.Yaml
