import SvgAssist.Config.Hcl.Token

/-!
# Items of HCL

What a file in HCL consists of: items, each a key and its value, or names and a body of items in
braces. The readers are given the tokens that are left, and answer with those that follow.
-/

namespace SvgAssist.Config.Hcl

/-- A value. An item of a body has one key, or several names before a body of its own. -/
inductive Value where
  | flag (value : Bool)
  | whole (literal : Text)
  | decimal (literal : Text)
  | string (value : Text)
  | list (items : List Value)
  | body (items : List (List Text × Value))
deriving Inhabited

abbrev Items := List (List Text × Value)

def Token.value? : Token → Option Value
  | .flag b => some (.flag b)
  | .whole literal => some (.whole literal)
  | .decimal literal => some (.decimal literal)
  | .string t | .block t => some (.string t)
  | .name _ | .mark _ => none

def Token.key? : Token → Option Text
  | .name t | .string t => some t
  | _ => none

def keys (tokens : List Token) : List Text :=
  (tokens.map Token.key?).takeWhile Option.isSome |>.filterMap id

def skipComma : List Token → List Token
  | .mark ',' :: rest => rest
  | rest => rest

mutual

/-- A value, and what follows it. There is none when a closing brace stands in its place or in its
last list; that brace is passed over. -/
def value? : Nat → List Token → Option (Option Value × List Token)
  | 0, _ => none
  | fuel + 1, tokens =>
    match tokens with
    | .mark '\x7b' :: rest => (body? fuel rest).map fun (v, rest) => (some v, rest)
    | .mark '\x7d' :: rest => some (none, rest)
    | .mark '[' :: rest => list? fuel false [] rest
    | token :: rest => token.value?.map fun v => (some v, rest)
    | [] => none

/-- The rest of a list, behind the items in `done`. After a list inside of it no comma is needed. -/
def list? : Nat → Bool → List Value → List Token → Option (Option Value × List Token)
  | 0, _, _, _ => none
  | fuel + 1, needsComma, done, tokens =>
    match tokens with
    | .mark ']' :: rest => some (some (.list done), rest)
    | .mark '\x7d' :: rest => some (none, rest)
    | .mark ',' :: rest => list? fuel false done rest
    | token :: _ =>
      if needsComma then none
      else do
        match ← value? fuel tokens with
        | (none, rest) => return (none, rest)
        | (some v, rest) => list? fuel (token ≠ .mark '[') (done ++ [v]) rest
    | [] => none

def body? : Nat → List Token → Option (Value × List Token)
  | 0, _ => none
  | fuel + 1, tokens => do
    let (items, rest) ← items? fuel true [] tokens
    match rest with
    | .mark '\x7d' :: rest => return (.body items, rest)
    | _ => none

/-- The items up to a closing brace, if they are `enclosed`, or else up to the end, behind those in
`done`. There a last key without its value counts for nothing. Neither does an enclosed one, but it
takes a brace of its own. -/
def items? : Nat → Bool → Items → List Token → Option (Items × List Token)
  | 0, _, _, _ => none
  | fuel + 1, enclosed, done, tokens =>
    let names := keys tokens
    match tokens, tokens.drop names.length with
    | [], _ => some (done, [])
    | .mark '\x7d' :: _, _ => if enclosed then some (done, tokens) else none
    | _, .mark '=' :: rest =>
      if names.length ≠ 1 then none
      else if rest = [] then some (done, [])
      else do
        match ← value? fuel rest with
        | (none, rest) => if enclosed then return (done, rest) else none
        | (some v, rest) => items? fuel enclosed (done ++ [(names, v)]) (skipComma rest)
    | _, .mark '\x7b' :: rest =>
      if names = [] then none
      else do
        let (v, rest) ← body? fuel rest
        items? fuel enclosed (done ++ [(names, v)]) (skipComma rest)
    | _, _ => none

end

def openItems? (text : Text) : Option Items := do
  let tokens ← tokens? text
  return (← items? (4 * tokens.length + 4) false [] tokens).1

end SvgAssist.Config.Hcl
