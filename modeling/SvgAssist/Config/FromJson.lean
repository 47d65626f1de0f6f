import SvgAssist.Config.Setting
import SvgAssist.Json.Reader

/-!
# Settings in JSON

A configuration file in JSON is an object, or null for nothing. All numbers are doubles, and one out
of their range refuses the whole.
-/

namespace SvgAssist.Config.FromJson

mutual

def setting? : Json → Option Setting
  | .null => some .null
  | .bool b => some (.flag b)
  | .number literal => (Number.Double.ofLiteral? literal).map .float
  | .string t => some (.text t)
  | .array items => if allSettings items then some .list else none
  | .object members => (entries? members).map .table

def allSettings : List Json → Bool
  | [] => true
  | item :: items => (setting? item).isSome && allSettings items

def entries? : List (Text × Json) → Option Entries
  | [] => some []
  | (key, value) :: members => do return (key, ← setting? value) :: (← entries? members)

end

def table? (text : Text) : Option Entries := do
  match ← setting? (← (Json.read text).toOption) with
  | .null => some []
  | .table es => some es
  | _ => none

end SvgAssist.Config.FromJson
