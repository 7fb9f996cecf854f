import PathLabels.Text.Blank

/-!
# Paths

A path is a text whose components are separated by slashes. Paths from different places are
compared without a leading `./`, and an empty component does not count.
-/

namespace PathLabels.Path

/-- A path without one leading `./`. -/
def normalizeChars : List Char → List Char
  | '.' :: '/' :: rest => rest
  | s => s

/-- A path without one leading `./`. -/
def normalize (path : String) : String := String.ofList (normalizeChars path.toList)

/-- The non-empty components of a path. -/
def components (s : List Char) : List String :=
  ((s.splitOn '/').filter fun c => !c.isEmpty).map String.ofList

/-- The number of bytes in components, without the slashes between them. -/
def byteCount (components : List String) : Nat :=
  components.foldr (fun c n => c.utf8ByteSize + n) 0

/-- Components joined by slashes. -/
def join (components : List String) : String := String.intercalate "/" components

/-- Without a leading `./` a path stays as it is. -/
theorem normalizeChars_of_direct {s : List Char} (h : ¬['.', '/'] <+: s) :
    normalizeChars s = s := by
  unfold normalizeChars
  split
  · rename_i rest
    exact absurd ⟨rest, rfl⟩ h
  · rfl

@[simp] theorem toList_normalize (path : String) :
    (normalize path).toList = normalizeChars path.toList := by
  simp [normalize]

end PathLabels.Path
