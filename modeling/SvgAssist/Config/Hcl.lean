import SvgAssist.Config.Hcl.Braces
import SvgAssist.Config.Setting

/-!
# Settings in HCL

The settings that the items of a file give. What is in braces counts as a list of tables, and a key
that is given again has to keep the kind of its value.
-/

namespace SvgAssist.Config.Hcl

open Number (Double anyBase? signed?)

def isBraced (text : Text) : Bool :=
  (text.dropWhile fun b => b = Byte.space || (0x09 ≤ b && b ≤ 0x0d)).head? = some 0x7b

def itemsOf? (text : Text) : Option Items :=
  if isBraced text then bracedFile? text else openItems? text

/-! ## Kinds -/

/-- What a key has been given. Lists and bodies differ in what they may be followed by. -/
inductive Slot where
  | flag (value : Bool)
  | whole (value : Int)
  | decimal (value : Double)
  | string (value : Text)
  | list
  | bodies
deriving DecidableEq, Repr

def Slot.toSetting : Slot → Setting
  | .flag b => .flag b
  | .whole n => .int n
  | .decimal d => .float d
  | .string t => .text t
  | .list | .bodies => .list

abbrev Slots := List (Text × Slot)

def whole? (text : Text) : Option Int := signed? anyBase? text

def sameName (a b : Text) : Bool := Text.lowerAscii a == Text.lowerAscii b

mutual

def slot? : Nat → Value → Option Slot
  | 0, _ => none
  | fuel + 1, v =>
    match v with
    | .flag b => some (.flag b)
    | .whole literal => (whole? literal).map .whole
    | .decimal literal => (Double.ofText? literal).map .decimal
    | .string t => some (.string t)
    | .list vs => if allSlots fuel vs then some .list else none
    | .body items => (slots? fuel items [] [] items).map fun _ => .bodies

def allSlots : Nat → List Value → Bool
  | 0, _ => false
  | _ + 1, [] => true
  | fuel + 1, v :: vs => (slot? fuel v).isSome && allSlots fuel vs

def allBodies : Nat → List Value → Bool
  | 0, _ => false
  | _ + 1, [] => true
  | fuel + 1, v :: vs => (slot? fuel v).any (· == .bodies) && allBodies fuel vs

def slotAgain? : Nat → Slot → Value → Option Slot
  | 0, _, _ => none
  | fuel + 1, earlier, v =>
    match earlier, v with
    | .flag _, .flag b => some (.flag b)
    | .whole _, .whole t | .whole _, .string t => (whole? t).map .whole
    | .decimal _, .decimal t | .decimal _, .whole t => (Double.ofText? t).map .decimal
    | .string _, .string t | .string _, .whole t => some (.string t)
    | .list, .list vs => if allSlots fuel vs then some .list else none
    | .list, .body items => (slots? fuel items [] [] items).map fun _ => .list
    | .bodies, .list vs => if allBodies fuel vs then some .bodies else none
    | .bodies, .body items => (slots? fuel items [] [] items).map fun _ => .bodies
    | _, _ => none

def allItems : Nat → Items → Bool
  | 0, _ => false
  | _ + 1, [] => true
  | fuel + 1, item :: items => (slots? fuel [item] [] [] [item]).isSome && allItems fuel items

/-- The values of the keys of a body of which `all` are the items. Items with several names are
taken together by the first of them, and `taken` has the names for which this was done. -/
def slots? : Nat → Items → List Text → Slots → Items → Option Slots
  | 0, _, _, _, _ => none
  | _ + 1, _, _, found, [] => some found
  | _ + 1, _, _, _, ([], _) :: _ => none
  | fuel + 1, all, taken, found, (key :: names, v) :: rest =>
    if taken.contains key then slots? fuel all taken found rest
    else do
      let earlier := found.reverse.lookup key
      if names = [] then
        let slot ← match earlier with
          | none => slot? fuel v
          | some earlier => slotAgain? fuel earlier v
        slots? fuel all taken (found ++ [(key, slot)]) rest
      else
        let group := all.filter fun (names, _) => names.head?.any (sameName key)
        if allItems fuel (group.map fun (names, v) => (names.drop 1, v)) &&
            earlier.all (· == .bodies) then
          slots? fuel all (key :: taken) (found ++ [(key, .bodies)]) rest
        else none

end

mutual

def Value.weight : Value → Nat
  | .list vs => weightOfList vs + 1
  | .body items => weightOfItems items + 1
  | _ => 1

def weightOfList : List Value → Nat
  | [] => 0
  | v :: vs => Value.weight v + weightOfList vs

def weightOfItems : List (List Text × Value) → Nat
  | [] => 0
  | (names, v) :: items => names.length + Value.weight v + weightOfItems items

end

def table? (text : Text) : Option Entries := do
  let items ← itemsOf? text
  let slots ← slots? (4 * weightOfItems items + 4) items [] [] items
  return slots.map fun (key, slot) => (key, slot.toSetting)

end SvgAssist.Config.Hcl
