import SvgAssist.Position
import SvgAssist.Text.Blank

/-!
# Cursor contexts

What the author is typing, judged by the characters on either side of the cursor: the name of a tag,
the name of an attribute, the value of an attribute, or none of these.
-/

namespace SvgAssist.Markup

inductive Context where
  | none
  | tagOpen
  | attributeName
  | attributeValue
deriving DecidableEq, Repr

def Context.label : Context → Text
  | .none => utf8 "none"
  | .tagOpen => utf8 "tag-open"
  | .attributeName => utf8 "attribute-name"
  | .attributeValue => utf8 "attribute-value"

/-- Whether `next`, the character after the cursor, can follow an attribute list: a slash, a `>`,
white space or nothing. -/
def endsAttributes (next : Text) : Bool :=
  match Text.firstChar? next with
  | none => true
  | some d => d.char = '/' || d.char = '>' || Text.isBlank d.char

def classify (prev next : Text) : Context :=
  if prev = utf8 "<" then .tagOpen
  else if prev = utf8 " " && endsAttributes next then .attributeName
  else if prev = utf8 "\"" || prev = utf8 "=" then .attributeValue
  else .none

def classifyAt (text : Text) (pos : Position) : Context :=
  classify (Text.charBefore text pos) (Text.charAfter text pos)

end SvgAssist.Markup
