import PathLabels.Toml.Value

/-!
# Assembling tables

The lines of a document say where values go; a `Node` is a table that is being assembled. Each
table remembers how it came about, because that decides what may still be added to it: a table
with a header of its own cannot be reopened, and a dotted key cannot reach into it.
-/

namespace PathLabels.Toml

/-- How a table came about. -/
inductive Origin where
  /-- It has a header of its own, or is the root. -/
  | header
  /-- A header named something inside it. -/
  | passed
  /-- A dotted key named something inside it. -/
  | dotted
  deriving DecidableEq

/-- A member of a table that is being assembled. -/
inductive Node where
  /-- A finished value. -/
  | value (v : Value)
  /-- A table. -/
  | table (origin : Origin) (entries : List (String × Node))
  /-- Tables that each have a header with this name. -/
  | tables (items : List (List (String × Node)))

namespace Node

/-- The members of a table that is being assembled. -/
abbrev Entries := List (String × Node)

/-- The member with a name. -/
def find? (key : String) (entries : Entries) : Option Node :=
  (entries.find? fun e => e.1 == key).map Prod.snd

/-- Puts a member in the place of the one with its name. -/
def replace (key : String) (node : Node) (entries : Entries) : Entries :=
  entries.map fun e => if e.1 == key then (key, node) else e

/-- Takes out the member with a name. -/
def remove (key : String) (entries : Entries) : Entries :=
  entries.filter fun e => e.1 != key

/-- Goes down along `path` and changes the table that is found there. Tables that are missing on
the way are made, and of tables with one name the last is entered. A dotted key does not enter a
table with a header of its own. -/
def descend {α : Type} (isDotted : Bool) (change : Origin → Entries → Option (α × Entries)) :
    List String → Origin → Entries → Option (α × Entries)
  | [], origin, entries => change origin entries
  | key :: path, _, entries =>
    match find? key entries with
    | none => do
      let origin := if isDotted then .dotted else .passed
      let (a, inner) ← descend isDotted change path origin []
      return (a, entries ++ [(key, .table origin inner)])
    | some (.value _) => none
    | some (.table origin inner) =>
      if isDotted && origin = .header then none
      else do
        let (a, inner) ← descend isDotted change path origin inner
        return (a, replace key (.table origin inner) entries)
    | some (.tables items) => do
      let last ← items.getLast?
      let (a, last) ← descend isDotted change path .header last
      return (a, replace key (.tables (items.dropLast ++ [last])) entries)

/-- Adds a value under a dotted key. Its last part must be new, and unless it is the only part the
table it goes into must have come about by dotted keys. -/
def assign (path : List String) (v : Value) (entries : Entries) : Option Entries := do
  let key ← path.getLast?
  let parents := path.dropLast
  let add (origin : Origin) (entries : Entries) : Option (Unit × Entries) :=
    if (origin = .dotted) = parents.isEmpty || (find? key entries).isSome then none
    else some ((), entries ++ [(key, .value v)])
  let ((), entries) ← descend (!parents.isEmpty) add parents .header entries
  return entries

mutual

/-- The value of a finished node. -/
def toValue : Node → Value
  | .value v => v
  | .table _ entries => .table (toTable entries)
  | .tables items => .array (toArray items)

/-- The members of a finished table. -/
def toTable : List (String × Node) → List (String × Value)
  | [] => []
  | (key, node) :: entries => (key, node.toValue) :: toTable entries

/-- The tables with one name. -/
def toArray : List (List (String × Node)) → List Value
  | [] => []
  | entries :: items => .table (toTable entries) :: toArray items

end

end Node

/-- One line of a document that says something. -/
inductive Statement where
  /-- The header of a table. -/
  | table (path : List String)
  /-- The header of one of several tables with one name. -/
  | tables (path : List String)
  /-- A key and its value. -/
  | assign (path : List String) (v : Value)

/-- A document that is being assembled: what is finished, and the table whose lines are read. -/
structure Assembly where
  root : Node.Entries := []
  /-- Where the open table belongs; the root table has the empty path. -/
  path : List String := []
  /-- Whether the open table is one of several with one name. -/
  isOneOfMany : Bool := false
  entries : Node.Entries := []

namespace Assembly

/-- Puts the open table into its place. -/
def closeTable (a : Assembly) : Option Node.Entries := do
  match a.path.getLast? with
  | none => return a.entries
  | some key =>
    let put (_ : Origin) (entries : Node.Entries) : Option (Unit × Node.Entries) :=
      match a.isOneOfMany, Node.find? key entries with
      | true, some (.tables items) =>
        some ((), Node.replace key (.tables (items ++ [a.entries])) entries)
      | false, none => some ((), entries ++ [(key, .table .header a.entries)])
      | _, _ => none
    let ((), root) ← Node.descend false put a.path.dropLast .header a.root
    return root

/-- Opens a table. A table that a header has passed through is continued; it moves to the end of
its own table. -/
def openTable (path : List String) (root : Node.Entries) : Option Assembly := do
  let key ← path.getLast?
  let take (_ : Origin) (entries : Node.Entries) : Option (Node.Entries × Node.Entries) :=
    match Node.find? key entries with
    | none => some ([], entries)
    | some (.table .passed inner) => some (inner, Node.remove key entries)
    | some _ => none
  let (entries, root) ← Node.descend false take path.dropLast .header root
  return { root, path, entries }

/-- Opens one more table with a name that several may have. -/
def openOneOfMany (path : List String) (root : Node.Entries) : Option Assembly := do
  let key ← path.getLast?
  let name (_ : Origin) (entries : Node.Entries) : Option (Unit × Node.Entries) :=
    match Node.find? key entries with
    | none => some ((), entries ++ [(key, .tables [])])
    | some (.tables _) => some ((), entries)
    | some _ => none
  let ((), root) ← Node.descend false name path.dropLast .header root
  return { root, path, isOneOfMany := true }

/-- Takes in one line. -/
def add (a : Assembly) : Statement → Option Assembly
  | .table path => do openTable path (← a.closeTable)
  | .tables path => do openOneOfMany path (← a.closeTable)
  | .assign path v => do return { a with entries := ← Node.assign path v a.entries }

/-- The table that the lines of a document make. -/
def document? (lines : List Statement) : Option Table := do
  let a ← lines.foldlM add {}
  return Node.toTable (← a.closeTable)

end Assembly

end PathLabels.Toml
