import SvgAssist.Config.Setting

/-!
# Tables of TOML

The tree that grows while a file is read, and what may be added to it: no key is set twice, no table
is opened twice, and keys with dots add to tables that were made by such keys only as long as these
are not closed.
-/

namespace SvgAssist.Config.Toml

/-- What a key has been given: a value, a table, or a series of tables, of which the last one may
grow. A table is `closed` when keys with dots may not add to it, and `dotted` when such a key has
made it under the heading that is being read. -/
inductive Entry where
  | value (setting : Setting)
  | table (closed dotted : Bool) (entries : List (Text × Entry))
  | series (entries : List (Text × Entry))
deriving Inhabited

abbrev Tree := List (Text × Entry)

namespace Tree

def put (key : Text) (entry : Entry) (t : Tree) : Tree :=
  t.map fun (k, e) => if k = key then (k, entry) else (k, e)

def assign? (setting : Setting) : List Text → Tree → Option Tree
  | [], _ => none
  | [key], t =>
    match t.lookup key with
    | none => some (t ++ [(key, .value setting)])
    | some _ => none
  | key :: path, t =>
    match t.lookup key with
    | none => do return t ++ [(key, .table false true (← assign? setting path []))]
    | some (.table false dotted inner) => do
      return t.put key (.table false dotted (← assign? setting path inner))
    | some _ => none

def through? (change : Text → Tree → Option Tree) : List Text → Tree → Option Tree
  | [], _ => none
  | [key], t => change key t
  | key :: path, t =>
    match t.lookup key with
    | none => do return t ++ [(key, .table false false (← through? change path []))]
    | some (.value _) => none
    | some (.table closed dotted inner) => do
      return t.put key (.table closed dotted (← through? change path inner))
    | some (.series inner) => do return t.put key (.series (← through? change path inner))

def openTable? (path : List Text) (t : Tree) : Option Tree :=
  through? (fun key t =>
    match t.lookup key with
    | none => some (t ++ [(key, .table true false [])])
    | some (.table false dotted inner) => some (t.put key (.table true dotted inner))
    | some _ => none) path t

def openSeries? (path : List Text) (t : Tree) : Option Tree :=
  through? (fun key t =>
    match t.lookup key with
    | none => some (t ++ [(key, .series [])])
    | some (.series _) => some (t.put key (.series []))
    | some _ => none) path t

def inside? (change : Tree → Option Tree) (path : List Text) (t : Tree) : Option Tree :=
  if path = [] then change t
  else
    through? (fun key t =>
      match t.lookup key with
      | some (.table closed dotted inner) => do
        return t.put key (.table closed dotted (← change inner))
      | some (.series inner) => do return t.put key (.series (← change inner))
      | _ => none) path t

end Tree

mutual

def Entry.close : Entry → Entry
  | .value setting => .value setting
  | .table closed dotted entries => .table (closed || dotted) false (closeAll entries)
  | .series entries => .series (closeAll entries)

def closeAll : List (Text × Entry) → List (Text × Entry)
  | [] => []
  | (key, entry) :: entries => (key, Entry.close entry) :: closeAll entries

end

mutual

def Entry.toSetting : Entry → Setting
  | .value setting => setting
  | .table _ _ entries => .table (settings entries)
  | .series _ => .list

def settings : List (Text × Entry) → List (Text × Setting)
  | [] => []
  | (key, entry) :: entries => (key, Entry.toSetting entry) :: settings entries

end

end SvgAssist.Config.Toml
