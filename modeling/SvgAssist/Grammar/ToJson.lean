import SvgAssist.Grammar.Basic
import SvgAssist.Json.Basic

/-!
# Grammar entries as JSON

The body of an element as a JSON tree. Fields that are empty, false or not given are left out; an
attribute entry is a string when it only refers to a global attribute.
-/

namespace SvgAssist.Grammar

def textMember (key : String) (text : Text) : List (Text × Json) :=
  if text = [] then [] else [(utf8 key, .string text)]

def flagMember (key : String) (flag : Bool) : List (Text × Json) :=
  if flag then [(utf8 key, .bool true)] else []

def listMember {α : Type} (key : String) (toJson : α → Json) (items : Option (List α)) :
    List (Text × Json) :=
  match items with
  | none | some [] => []
  | some items => [(utf8 key, .array (items.map toJson))]

def EnumValue.toJson (v : EnumValue) : Json :=
  .object ((utf8 "name", .string v.name) :: textMember "documentation" v.documentation)

def Attribute.toJson (a : Attribute) : Json :=
  .object ((utf8 "name", .string a.name) :: textMember "documentation" a.documentation ++
    flagMember "deprecated" a.deprecated ++ textMember "type" a.type ++
    listMember "enum" EnumValue.toJson a.values)

def AttributeEntry.toJson : AttributeEntry → Json
  | .ref name => .string name
  | .own definition => definition.toJson

def Element.toJson (e : Element) : Json :=
  .object (textMember "documentation" e.documentation ++ flagMember "deprecated" e.deprecated ++
    flagMember "simple" e.simple ++ flagMember "inline" e.inline ++
    listMember "subElements" Json.string e.children ++
    listMember "attributes" AttributeEntry.toJson e.attributes)

end SvgAssist.Grammar
