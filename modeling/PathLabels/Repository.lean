import PathLabels.ConfigError

/-!
# Repositories

A repository is named by its owner and its own name, written with one slash between them. Neither
part is empty and neither holds a slash, so the written form determines both.
-/

namespace PathLabels

/-- The name of a repository. -/
structure Repository where
  owner : String
  name : String
  deriving Repr, DecidableEq, Inhabited

namespace Repository

/-- The written form of a repository. -/
def text (r : Repository) : String := r.owner ++ "/" ++ r.name

/-- The repository that a text names, blanks around it apart. -/
def ofText? (text : String) : Option Repository :=
  match (Text.trimChars text.toList).splitOn '/' with
  | [owner, name] =>
    if owner.isEmpty || name.isEmpty then none else some ⟨String.ofList owner, String.ofList name⟩
  | _ => none

/-- Reads a repository, or reports the text as it was given. -/
def parse (text : String) : Except ConfigError Repository :=
  match ofText? text with
  | some r => .ok r
  | none => .error (.invalidRepository text)

end Repository

end PathLabels
