import PathLabels.ConfigError
import PathLabels.Path

/-!
# File trees

A tree of directories and files, and the way in which a path leads through it: component by
component, where `.` stays, `..` goes up, and everything but the last component has to be a
directory. A path that ends in a slash names a directory.
-/

namespace PathLabels

/-- A file with its contents, or a directory with its entries. -/
inductive FileTree where
  | file (contents : List UInt8)
  | directory (entries : List (String × FileTree))
  deriving Inhabited

namespace FileTree

def empty : FileTree := .directory []

/-- The entry of a directory with a name. -/
def child? (name : String) : FileTree → Option FileTree
  | .file _ => none
  | .directory entries => entries.lookup name

/-- What stands at a place, given by the names that lead to it. -/
def get? (t : FileTree) : List String → Option FileTree
  | [] => some t
  | name :: names => (t.child? name).bind fun t => t.get? names

def isDirectory : FileTree → Bool
  | .directory _ => true
  | .file _ => false

/-! ## Walking -/

/-- The greatest number of bytes in a name. -/
def nameLimit : Nat := 255

/-- Follows one component from a place. -/
def step (t : FileTree) (place : List String) (name : String) : Except IoError (List String) :=
  match t.get? place with
  | none => .error .notFound
  | some here =>
    if !here.isDirectory then .error .notADirectory
    else if name = "." then .ok place
    else if name = ".." then .ok place.dropLast
    else if nameLimit < name.utf8ByteSize then .error .nameTooLong
    else if (here.child? name).isSome then .ok (place ++ [name])
    else .error .notFound

/-- Follows components from a place. -/
def walk (t : FileTree) (place : List String) (names : List String) :
    Except IoError (List String) :=
  names.foldlM t.step place

/-- The components of a path; a slash at its end counts as a dot. -/
def pathNames (path : String) : List String :=
  Path.components path.toList ++ (if path.toList.getLast? = some '/' then ["."] else [])

/-- The place where a path begins: the root, or the directory in which it is read. -/
def origin (place : List String) (path : String) : List String :=
  if path.toList.head? = some '/' then [] else place

/-- The place that a path names. -/
def resolve (t : FileTree) (place : List String) (path : String) : Except IoError (List String) :=
  if path.isEmpty then .error .notFound else t.walk (origin place path) (pathNames path)

/-- The place of the directory to which components lead. -/
def resolveNames (t : FileTree) (place names : List String) : Except IoError (List String) := do
  t.step (← t.walk place names) "."

/-- The place of the directory that a path names. -/
def resolveDirectory (t : FileTree) (place : List String) (path : String) :
    Except IoError (List String) := do
  t.step (← t.resolve place path) "."

/-- Whether components lead from a place to anything. -/
def leads (t : FileTree) (place : List String) (names : List String) : Bool :=
  (t.walk place names).toOption.isSome

/-! ## Files -/

/-- The contents of the file that a path names. -/
def read (t : FileTree) (place : List String) (path : String) : Except IoError (List UInt8) := do
  match t.get? (← t.resolve place path) with
  | some (.file contents) => return contents
  | some (.directory _) => throw .isADirectory
  | none => throw .notFound

/-- Puts an entry into the place of the one with its name, or after the others. -/
def put (name : String) (t : FileTree) : List (String × FileTree) → List (String × FileTree)
  | [] => [(name, t)]
  | e :: es => if e.1 = name then (name, t) :: es else e :: put name t es

/-- Changes what stands at a place. Directories on the way are made where there are none. -/
def alter (change : Option FileTree → FileTree) : List String → Option FileTree → FileTree
  | [], t? => change t?
  | name :: names, t? =>
    let entries := match t? with
      | some (.directory entries) => entries
      | _ => []
    .directory (put name (alter change names (entries.lookup name)) entries)

/-- The tree with a file at a place. -/
def withFile (t : FileTree) (place : List String) (contents : List UInt8) : FileTree :=
  alter (fun _ => .file contents) place (some t)

/-- The tree with a directory at a place, which keeps its entries if it is there. -/
def withDirectory (t : FileTree) (place : List String) : FileTree :=
  alter (fun t? => t?.getD .empty) place (some t)

/-- The place of the file that a path names or would name. Its directory has to be there, and a path
that can only name a directory is refused. -/
def target (t : FileTree) (place : List String) (path : String) : Except IoError (List String) := do
  if path.isEmpty then throw .notFound
  let names := Path.components path.toList
  let directory ← t.resolveNames (origin place path) names.dropLast
  match names.getLast? with
  | none => throw .isADirectory
  | some name =>
    if path.toList.getLast? = some '/' ∨ name = "." ∨ name = ".." then throw .isADirectory
    else if nameLimit < name.utf8ByteSize then throw .nameTooLong
    else return directory ++ [name]

/-- Writes bytes at the end of a file, which is made if there is none. -/
def append (t : FileTree) (place : List String) (path : String) (bytes : List UInt8) :
    Except IoError FileTree := do
  let place ← t.target place path
  match t.get? place with
  | some (.directory _) => throw .isADirectory
  | some (.file contents) => return t.withFile place (contents ++ bytes)
  | none => return t.withFile place bytes

end FileTree

end PathLabels
