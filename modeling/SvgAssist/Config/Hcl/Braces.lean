import SvgAssist.Config.Hcl.Item

/-!
# Items in braces

A file that begins with a brace has its items as JSON writes them. It is read loosely: as far as its
outermost braces go and no further, and what is not closed at its end is closed there. A list keeps
what it understands of its items, and ends with the first bracket that closes.
-/

namespace SvgAssist.Config.Hcl

def nextToken? : List Char → Option (Option Token × List Char)
  | [] => some (none, [])
  | c :: rest =>
    if c = ':' then some (some (.mark ':'), rest)
    else if [' ', '\t', '\n', '\r'].contains c then nextToken? rest
    else if ['#', '/', '<', '=', '+'].contains c || (c = '-' && !rest.head?.any Char.isDigit) then
      none
    else next? c rest

def bareValue? : Token → Option Value
  | .name t => if t = utf8 "null" then some (.string []) else none
  | token => token.value?

mutual

/-- A value, and what follows it. There is none when the text is over, or when a closing brace
stands in its place; that brace is passed over. -/
def bracedValue? : Nat → List Char → Option (Option Value × List Char)
  | 0, _ => none
  | fuel + 1, text => do
    match ← nextToken? text with
    | (none, rest) | (some (.mark '\x7d'), rest) => return (none, rest)
    | (some (.mark '\x7b'), rest) =>
      (bracedItems? fuel [] [] rest).map fun (items, rest) => (some (.body items), rest)
    | (some (.mark '['), rest) => bracedList? fuel [] rest
    | (some token, rest) => (bareValue? token).map fun v => (some v, rest)

def bracedList? : Nat → List Value → List Char → Option (Option Value × List Char)
  | 0, _, _ => none
  | fuel + 1, done, text => do
    match ← nextToken? text with
    | (some (.mark ']'), rest) => return (some (.list done), rest)
    | (some (.mark '\x7d'), rest) => return (none, rest)
    | (some (.mark ','), rest) | (some (.mark '['), rest) | (some (.flag _), rest) =>
      bracedList? fuel done rest
    | (some (.mark '\x7b'), rest) => do
      let (items, rest) ← bracedItems? fuel [] [] rest
      bracedList? fuel (done ++ [.body items]) rest
    | (some (.name _), _) | (none, _) => none
    | (some token, rest) => bracedList? fuel (done ++ [← token.value?]) rest

def bracedItems? : Nat → List Text → Items → List Char → Option (Items × List Char)
  | 0, _, _, _ => none
  | fuel + 1, names, done, text => do
    match ← nextToken? text with
    | (none, rest) | (some (.mark '\x7d'), rest) => return (done, rest)
    | (some (.string name), rest) => bracedItems? fuel (names ++ [name]) done rest
    | (some (.mark ':'), rest) =>
      if names = [] then none
      else
        match ← bracedValue? fuel rest with
        | (none, rest) => return (done, rest)
        | (some v, rest) =>
          let done := done ++ [(names, v)]
          match ← nextToken? rest with
          | (some (.mark ','), rest) => bracedItems? fuel [] done rest
          | (_, rest) => return (done, rest)
    | _ => none

end

def Value.isBody : Value → Bool
  | .body _ => true
  | _ => false

/-! ## Names of bodies

A body all of whose items have bodies names these, and so does a list of bodies. -/

mutual

def named (names : List Text) : Value → Items
  | .body items =>
    if items ≠ [] && items.all (·.2.isBody) then namedInner names items
    else [(names, .body (namedAll items))]
  | .list vs =>
    if vs ≠ [] && vs.all Value.isBody then namedEach names vs else [(names, .list (inList vs))]
  | v => [(names, v)]

def namedInner (names : List Text) : List (List Text × Value) → Items
  | [] => []
  | (own, v) :: items => named (names ++ own) v ++ namedInner names items

def namedEach (names : List Text) : List Value → Items
  | [] => []
  | v :: vs => named names v ++ namedEach names vs

def namedAll : List (List Text × Value) → Items
  | [] => []
  | (own, v) :: items => named own v ++ namedAll items

def inList : List Value → List Value
  | [] => []
  | .body items :: vs => .body (namedAll items) :: inList vs
  | v :: vs => v :: inList vs

end

def bracedFile? (text : Text) : Option Items := do
  let chars := (Text.chars text).map (·.char)
  match ← nextToken? chars with
  | (some (.mark '\x7b'), rest) =>
    return namedAll (← bracedItems? (chars.length + 1) [] [] rest).1
  | _ => none

end SvgAssist.Config.Hcl
