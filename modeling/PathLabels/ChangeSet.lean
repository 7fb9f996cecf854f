import PathLabels.Ascending
import PathLabels.Path

/-!
# Change sets

The paths that a pull request changes: each once, in ascending order, without a leading `./`.
Blank entries are no paths.
-/

namespace PathLabels

/-- A set of changed paths. -/
structure ChangeSet where
  paths : List String
  ascends : Ascending.Ascends paths

namespace ChangeSet

def empty : ChangeSet := ⟨[], Ascending.ascends_nil⟩

instance : Inhabited ChangeSet := ⟨empty⟩

/-- The path that an entry stands for, unless it stands for none. -/
def entry? (path : String) : Option String :=
  let path' := Path.normalize path
  if Text.allBlank path || path'.isEmpty then none else some path'

/-- Adds an entry. -/
def insert (changes : ChangeSet) (path : String) : ChangeSet :=
  match entry? path with
  | none => changes
  | some path => ⟨Ascending.insert path changes.paths, Ascending.ascends_insert changes.ascends⟩

/-- The set of the given entries. -/
def ofList (paths : List String) : ChangeSet := paths.foldl insert empty

def size (changes : ChangeSet) : Nat := changes.paths.length

def isEmpty (changes : ChangeSet) : Bool := changes.paths.isEmpty

theorem entry?_eq_some_iff {entry p : String} :
    entry? entry = some p ↔ Text.allBlank entry = false ∧ Path.normalize entry = p ∧ p ≠ "" := by
  unfold entry?
  dsimp only
  split
  · rename_i h
    refine ⟨nofun, ?_⟩
    rintro ⟨hblank, rfl, hne⟩
    simp [hblank, hne] at h
  · rename_i h
    rw [Bool.or_eq_true, not_or, Bool.not_eq_true] at h
    constructor
    · intro heq
      cases heq
      exact ⟨h.1, rfl, by simpa using h.2⟩
    · rintro ⟨-, rfl, -⟩
      rfl

theorem mem_paths_insert {changes : ChangeSet} {path p : String} :
    p ∈ (changes.insert path).paths ↔ entry? path = some p ∨ p ∈ changes.paths := by
  rw [insert]
  cases h : entry? path with
  | none => simp
  | some q => simp [eq_comm]

/-- A set holds what its entries stand for. -/
theorem mem_paths_ofList {paths : List String} {p : String} :
    p ∈ (ofList paths).paths ↔ ∃ path ∈ paths, entry? path = some p := by
  suffices h : ∀ changes : ChangeSet,
      p ∈ (paths.foldl insert changes).paths ↔
        (∃ path ∈ paths, entry? path = some p) ∨ p ∈ changes.paths by
    simpa [ofList, empty] using h empty
  intro changes
  induction paths generalizing changes with
  | nil => simp
  | cons path paths ih =>
    simp only [List.foldl_cons, ih, mem_paths_insert, List.mem_cons, exists_eq_or_imp]
    constructor
    · rintro (h | h | h) <;> simp [h]
    · rintro ((h | h) | h) <;> simp [h]

/-- Sets with the same paths are equal. -/
theorem eq_of_mem_iff {a b : ChangeSet} (h : ∀ p, p ∈ a.paths ↔ p ∈ b.paths) : a = b := by
  cases a; cases b
  simp only [mk.injEq]
  exact Ascending.eq_of_mem_iff (by assumption) (by assumption) h

end ChangeSet

end PathLabels
