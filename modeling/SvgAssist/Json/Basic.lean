import SvgAssist.Text.Char

/-!
# JSON values

The tree of a JSON document. Strings are bytes that are valid UTF-8, numbers keep the literal they
were written with, and an object keeps its members in order, repeated keys included: which of them
counts is a question for whoever decodes the object.
-/

namespace SvgAssist

inductive Json where
  | null
  | bool (value : Bool)
  | number (literal : Text)
  | string (text : Text)
  | array (items : List Json)
  | object (members : List (Text × Json))
deriving Inhabited

namespace Json

def ofInt (n : Int) : Json := .number (Text.ofInt n)

def ofNat (n : Nat) : Json := .number (Text.ofNat n)

def ofString (s : String) : Json := .string (utf8 s)

def record (members : List (String × Json)) : Json :=
  .object (members.map fun (key, value) => (utf8 key, value))

def members : Json → List (Text × Json)
  | .object ms => ms
  | _ => []

/-- The last member of that name. -/
def member? (key : Text) (value : Json) : Option Json :=
  (value.members.reverse.find? fun (k, _) => k == key).map (·.2)

end Json

end SvgAssist
