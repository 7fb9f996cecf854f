import PathLabels.Proofs.ByteOrder
import PathLabels.Proofs.Fetching
import PathLabels.Proofs.NormalForm

/-!
# Paths ended by NULs

Git lists changed paths one after the other and ends each of them with a NUL, which no path holds.
So a path may have spaces, quotes and line breaks anywhere, and the list is read by cutting it at
the NULs. Behind the last NUL an empty piece is left over. It drops out like every blank entry, and
the other pieces are the paths as they were written, since nothing is trimmed.

Reading the list gives the set of its paths. The order in which they were listed is lost, and how
often each was; nothing else is.
-/

namespace PathLabels

/-- A path that stands for itself when it is listed: it is not blank, has no NUL, and does not begin
with `./`. -/
structure Path.IsListable (path : String) : Prop where
  notBlank : Text.allBlank path = false
  noNul : '\x00' ∉ path.toList
  direct : ¬['.', '/'] <+: path.toList

instance (path : String) : Decidable (Path.IsListable path) :=
  decidable_of_iff
    (Text.allBlank path = false ∧ '\x00' ∉ path.toList ∧ ¬['.', '/'] <+: path.toList)
    ⟨fun h => ⟨h.1, h.2.1, h.2.2⟩, fun h => ⟨h.notBlank, h.noNul, h.direct⟩⟩

namespace Git

/-- Paths one after the other, each ended by a NUL. -/
def nulEnded (paths : List String) : String :=
  String.ofList (paths.flatMap fun path => path.toList ++ ['\x00'])

variable {paths others : List String}

theorem bytes_nulEnded (paths : List String) :
    Text.bytes (nulEnded paths) = paths.flatMap fun path => Text.bytes path ++ [0] := by
  rw [Text.bytes, nulEnded, String.toList_ofList]
  induction paths with
  | nil => rfl
  | cons path paths ih =>
    rw [List.flatMap_cons, List.flatMap_cons, Text.bytesOf_append, Text.bytesOf_append, ih]
    rfl

/-- The entries are the paths, and an empty one at the end. -/
theorem entries_nulEnded (h : ∀ path ∈ paths, '\x00' ∉ path.toList) :
    entries (nulEnded paths) = paths ++ [""] := by
  have hpieces : ∀ piece ∈ paths.map String.toList, '\x00' ∉ piece := by
    intro piece hpiece
    obtain ⟨path, hpath, rfl⟩ := List.mem_map.mp hpiece
    exact h path hpath
  have hsplit := splitOn_ended '\x00' hpieces
  rw [List.flatMap_map] at hsplit
  have hself : String.ofList ∘ String.toList = id := funext fun _ => String.ofList_toList
  rw [entries, nulEnded, String.toList_ofList, hsplit, List.map_append, List.map_map, hself,
    List.map_id]
  rfl

/-- The set that is read from a list of paths. -/
def listed (paths : List String) : ChangeSet := ChangeSet.ofList (entries (nulEnded paths))

/-- **What has been listed is read, and nothing else.** -/
theorem mem_listed (h : ∀ path ∈ paths, Path.IsListable path) {p : String} :
    p ∈ (listed paths).paths ↔ p ∈ paths := by
  have hself : ∀ path ∈ paths, ChangeSet.entry? path = some path := by
    intro path hpath
    have hlistable := h path hpath
    exact ChangeSet.entry?_of_isNormal
      ⟨hlistable.notBlank, Path.normalize_of_direct hlistable.direct⟩
  rw [listed, entries_nulEnded fun path hpath => (h path hpath).noNul, ChangeSet.mem_paths_ofList]
  constructor
  · intro hentry
    obtain ⟨entry, hmem, hp⟩ := hentry
    rcases List.mem_append.mp hmem with hpath | hlast
    · rw [hself entry hpath] at hp
      exact Option.some.inj hp ▸ hpath
    · -- the piece behind the last NUL stands for nothing
      rw [List.mem_singleton.mp hlast, ChangeSet.entry?_empty] at hp
      cases hp
  · intro hp
    exact ⟨p, List.mem_append_left _ hp, hself p hp⟩

theorem listed_eq_iff (hothers : ∀ path ∈ others, Path.IsListable path)
    (hpaths : ∀ path ∈ paths, Path.IsListable path) :
    listed others = listed paths ↔ ∀ p, p ∈ others ↔ p ∈ paths := by
  constructor
  · intro hsame p
    rw [← mem_listed hothers, hsame, mem_listed hpaths]
  · intro hmem
    refine ChangeSet.eq_of_mem_iff fun p => ?_
    rw [mem_listed hothers, mem_listed hpaths]
    exact hmem p

/-- The paths of a set ascend by their bytes. -/
theorem ascends_bytes (changes : ChangeSet) :
    changes.paths.Pairwise fun p q => Text.bytes p < Text.bytes q :=
  changes.ascends.imp fun hlt => Text.bytes_lt_bytes_iff.mpr hlt

/-- A git that comes as far as a list of paths makes the set that is read from it. -/
theorem fetch_of_nulEnded {o : GitOutputs} (base head : String)
    (hbase : o.baseCommit.success = true) (hhead : o.headCommit.success = true)
    (hmergeBase : o.mergeBase.success = true)
    (htext : ∃ text, Text.decode o.mergeBase.stdout = .ok text) (hdiff : o.diff.success = true)
    (hstdout : o.diff.stdout = paths.flatMap fun path => Text.bytes path ++ [0]) :
    (o.fetch base head).1 = .ok (listed paths) := by
  have hread : Text.decode o.diff.stdout = .ok (nulEnded paths) := by
    rw [hstdout, ← bytes_nulEnded, Text.decode_bytes]
  have hnone := (o.firstFault?_steps_eq_none_iff base head).mpr
    ⟨hbase, hhead, ⟨hmergeBase, htext⟩, hdiff, _, hread⟩
  rw [GitOutputs.fetch_eq, hnone, Text.decodeLossy_of_decode hread]
  rfl

/--
**A list of paths is read back as the set of its paths.**

Let any paths be listed, in any order and any number of times, that are not blank, hold no NUL and
do not begin with `./`. The set that is read from the list holds these paths and no others, in
ascending order of their bytes. Two such lists make the same set exactly if the same paths are listed.
And it is this set that is found whenever the bytes of the list are what git writes at the last step.
-/
theorem changes_nulEnded (paths : List String) (h : ∀ path ∈ paths, Path.IsListable path) :
    let changes := ChangeSet.ofList (entries (nulEnded paths))
    (∀ p, p ∈ changes.paths ↔ p ∈ paths)
      ∧ (changes.paths.Pairwise fun p q => Text.bytes p < Text.bytes q)
      ∧ (∀ others, (∀ path ∈ others, Path.IsListable path) →
          (ChangeSet.ofList (entries (nulEnded others)) = changes ↔ ∀ p, p ∈ others ↔ p ∈ paths))
      ∧ ∀ (o : GitOutputs) (base head : String),
          o.baseCommit.success = true → o.headCommit.success = true →
          o.mergeBase.success = true → (∃ text, Text.decode o.mergeBase.stdout = .ok text) →
          o.diff.success = true →
          o.diff.stdout = (paths.flatMap fun path => Text.bytes path ++ [0]) →
          (o.fetch base head).1 = .ok changes := by
  intro changes
  refine ⟨fun p => mem_listed h, ascends_bytes changes, ?_, ?_⟩
  · intro others hothers
    exact listed_eq_iff hothers h
  · intro o base head hbase hhead hmergeBase htext hdiff hstdout
    exact fetch_of_nulEnded base head hbase hhead hmergeBase htext hdiff hstdout

/-- A path with a line break and one with blanks at both ends, listed in two ways. Git writes the
second one. -/
theorem changes_nulEnded_blanks :
    let paths := ["docs/a\nb.md", " notes \"é\" ", "docs/a\nb.md"]
    let changes := ChangeSet.ofList (entries (nulEnded paths))
    let o := { GitOutputs.twoSpellings with
      diff := { success := true, stdout := Text.bytes " notes \"é\" \x00docs/a\nb.md\x00" } }
    (∀ path ∈ paths, Path.IsListable path) ∧ changes.paths = [" notes \"é\" ", "docs/a\nb.md"]
      ∧ (o.fetch "main" "HEAD").1 = .ok changes := by
  intro paths changes o
  let others := [" notes \"é\" ", "docs/a\nb.md"]
  have hpaths : ∀ path ∈ paths, Path.IsListable path := by decide
  have hothers : ∀ path ∈ others, Path.IsListable path := by decide
  have hset : ChangeSet.ofList (entries (nulEnded others)) = changes := by
    obtain ⟨-, -, hsame, -⟩ := changes_nulEnded paths hpaths
    exact (hsame others hothers).mpr (by simp [paths, others])
  obtain ⟨-, -, -, hfetch⟩ := changes_nulEnded others hothers
  refine ⟨hpaths, by decide +kernel, ?_⟩
  rw [← hset]
  exact hfetch o "main" "HEAD" rfl rfl rfl ⟨_, Text.decode_bytes _⟩ rfl (by decide +kernel)

end Git

end PathLabels
