import SvgAssist.Json.Field

/-!
# Shapes of values

What a record expects of the members of an object. A value fits when everything in it does; `null`
fits everywhere, and members that no field is named after fit in any case.
-/

namespace SvgAssist.Json

inductive Shape where
  | flag
  | text
  | int32
  | uint32
  | numberOrText
  | list (items : Shape)
  | record (fields : List (String × Shape))
  | flagOrRecord (fields : List (String × Shape))
deriving Inhabited

namespace Shape

def field? (fields : List (String × Shape)) (key : Text) : Option Shape :=
  (fields.find? fun (name, _) => foldKey (utf8 name) == foldKey key).map (·.2)

mutual

def fits (shape : Shape) : Json → Bool
  | .null => true
  | .bool _ => match shape with
    | .flag | .flagOrRecord _ => true
    | _ => false
  | .string _ => match shape with
    | .text | .numberOrText => true
    | _ => false
  | .number literal => match shape with
    | .int32 | .numberOrText => (Json.number literal).int32?.isSome
    | .uint32 => (Json.number literal).uint32?.isSome
    | _ => false
  | .array items => match shape with
    | .list shape => allFit shape items
    | _ => false
  | .object members => match shape with
    | .record fields | .flagOrRecord fields => membersFit fields members
    | _ => false

def allFit (shape : Shape) : List Json → Bool
  | [] => true
  | item :: items => fits shape item && allFit shape items

def membersFit (fields : List (String × Shape)) : List (Text × Json) → Bool
  | [] => true
  | (key, value) :: members =>
    (match field? fields key with
      | some shape => fits shape value
      | none => true) && membersFit fields members

end

end Shape

end SvgAssist.Json
