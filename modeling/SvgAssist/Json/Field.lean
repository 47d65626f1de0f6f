import SvgAssist.Json.Basic

/-!
# Fields of objects

How the members of an object are matched with the fields of a record. A key matches whatever its
case. A field may be given more than once, and every value given for it has to fit; `null` leaves
the field as it was.
-/

namespace SvgAssist.Json

/-- The lower-case form of a character in a field name. Two characters outside ASCII are variants of
a letter. -/
def foldChar (c : Char) : Char :=
  if c.toNat = 0x17f then 's' else if c.toNat = 0x212a then 'k' else c.toLower

def foldKey (key : Text) : Text := Text.ofChars ((Text.chars key).map fun d => foldChar d.char)

def given (name : String) (value : Json) : List Json :=
  let key := foldKey (utf8 name)
  value.members.filterMap fun (k, v) => if foldKey k = key then some v else none

/-- The value of a field: the last one that is given and not `null`, or else `initial`. It is `none`
when some value does not fit. -/
def field {α : Type} (decode : Json → Option α) (initial : α) (name : String) (value : Json) :
    Option α :=
  (value.given name).foldlM
    (fun earlier (v : Json) => match v with
      | .null => some earlier
      | v => decode v)
    initial

/-- A field that may be left out. Here `null` takes an earlier value away. -/
def optional {α : Type} (decode : Json → Option α) (name : String) (value : Json) :
    Option (Option α) :=
  (value.given name).foldlM
    (fun _ (v : Json) => match v with
      | .null => some none
      | v => (decode v).map some)
    none

/-- A field that holds a record: the members of all objects given for it, one after the other. -/
def inner (name : String) (value : Json) : Option Json :=
  ((value.given name).foldlM
    (fun (earlier : List (Text × Json)) (v : Json) => match v with
      | .object ms => some (earlier ++ ms)
      | .null => some earlier
      | _ => none)
    []).map object

def text? : Json → Option Text
  | .string t => some t
  | _ => none

def object? : Json → Option Json
  | .object ms => some (.object ms)
  | _ => none

def integer? (low high : Int) : Json → Option Int
  | .number literal =>
    let digits := if literal.head? = some Byte.hyphen then literal.drop 1 else literal
    let size : Int := (digits.foldl (fun n b => n * 10 + (b.toNat - 0x30)) 0 : Nat)
    let n := if literal.head? = some Byte.hyphen then -size else size
    if digits.all Byte.isDigit && low ≤ n && n ≤ high then some n else none
  | _ => none

def int32? (v : Json) : Option Int := integer? (-0x80000000) 0x7fffffff v

/-- An unsigned number of 32 bits. A minus sign is refused even before a zero. -/
def uint32? : Json → Option UInt32
  | .number literal =>
    if literal.head? = some Byte.hyphen then none
    else (integer? 0 0xffffffff (.number literal)).map fun n => .ofNat n.toNat
  | _ => none

end SvgAssist.Json
