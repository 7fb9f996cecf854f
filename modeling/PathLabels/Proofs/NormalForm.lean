import Mathlib.Data.Finset.Dedup
import Mathlib.Data.Finset.Order
import PathLabels.Proofs.EffectiveMatch
import PathLabels.Proofs.Listing
import PathLabels.Proofs.Skip

/-!
# Change sets in normal form

A path is in normal form if it is not blank and has no leading `./` that matching would take away.
Adding an entry to a change set takes one `./` away, and whether the entry is blank is asked before
that. So two kinds of entries leave paths that are not in normal form: those that begin with `./`
twice, and those with nothing but blanks behind it. The others do not, and a set in normal form is
what its own paths make when they are added again.
-/

namespace PathLabels

namespace Path

/-- A path that is not blank, and has no leading `./`. -/
structure IsNormal (path : String) : Prop where
  notBlank : Text.allBlank path = false
  normalized : normalize path = path

/-- What stands behind a leading `./` of an entry is nothing, or a path in normal form. -/
def IsOrderly (entry : String) : Prop :=
  ∀ rest, entry.toList = '.' :: '/' :: rest → rest ≠ [] →
    rest.all Text.isBlank = false ∧ ¬['.', '/'] <+: rest

instance (entry : String) : Decidable (IsOrderly entry) :=
  decidable_of_iff
    (['.', '/'] <+: entry.toList → entry.toList.drop 2 ≠ [] →
      (entry.toList.drop 2).all Text.isBlank = false ∧ ¬['.', '/'] <+: entry.toList.drop 2) <| by
    constructor
    · intro h rest hrest hne
      rw [hrest] at h
      exact h ⟨rest, rfl⟩ hne
    · rintro h ⟨rest, hrest⟩ hne
      rw [← hrest] at hne ⊢
      exact h rest hrest.symm hne

variable {path entry p : String}

theorem normalize_eq_self_iff : normalize path = path ↔ ¬['.', '/'] <+: path.toList := by
  constructor
  · rintro hsame ⟨rest, hrest⟩
    have hchars : normalizeChars path.toList = path.toList := by
      rw [← toList_normalize, hsame]
    rw [← hrest] at hchars
    have hlength := congrArg List.length hchars
    simp only [normalizeChars, List.cons_append, List.nil_append, List.length_cons] at hlength
    omega
  · exact normalize_of_direct

/-- What an entry stands for is in normal form exactly if the entry is orderly. -/
theorem isNormal_iff_isOrderly (h : ChangeSet.entry? entry = some p) :
    IsNormal p ↔ IsOrderly entry := by
  obtain ⟨hblank, rfl, hne⟩ := ChangeSet.entry?_eq_some_iff.mp h
  by_cases hdot : ['.', '/'] <+: entry.toList
  · obtain ⟨rest, hrest⟩ := hdot
    have hentry : entry.toList = '.' :: '/' :: rest := hrest.symm
    have hchars : (normalize entry).toList = rest := by
      rw [toList_normalize, hentry]
      rfl
    have hnonempty : rest ≠ [] := fun hnil =>
      hne (String.toList_eq_nil_iff.mp (hchars.trans hnil))
    constructor
    · intro hnormal rest' hrest' _
      obtain rfl : rest = rest' := by
        rw [hentry] at hrest'
        cases hrest'
        rfl
      have hblank' := hnormal.notBlank
      have hdirect := normalize_eq_self_iff.mp hnormal.normalized
      rw [Text.allBlank, hchars] at hblank'
      rw [hchars] at hdirect
      exact ⟨hblank', hdirect⟩
    · intro horderly
      obtain ⟨hblank', hdirect⟩ := horderly rest hentry hnonempty
      refine ⟨?_, normalize_eq_self_iff.mpr ?_⟩
      · rw [Text.allBlank, hchars]
        exact hblank'
      · rw [hchars]
        exact hdirect
  · have hkept := normalize_of_direct hdot
    rw [hkept]
    refine iff_of_true ⟨hblank, hkept⟩ fun rest hrest _ => ?_
    exact absurd ⟨rest, hrest.symm⟩ hdot

/-- An entry that is dropped leaves nothing behind. -/
theorem isOrderly_of_dropped (h : ChangeSet.entry? entry = none) : IsOrderly entry := by
  intro rest hrest hne
  have hblank : Text.allBlank entry = false := by
    rw [Text.allBlank, hrest]
    rfl
  have hnormalize : normalize entry ≠ "" := by
    intro hempty
    have hchars := congrArg String.toList hempty
    rw [toList_normalize, hrest] at hchars
    exact hne hchars
  rw [ChangeSet.entry?_eq_some_iff.mpr ⟨hblank, rfl, hnormalize⟩] at h
  cases h

end Path

namespace ChangeSet

/-- Every path of the set is in normal form. -/
def IsNormal (changes : ChangeSet) : Prop := ∀ p ∈ changes.paths, Path.IsNormal p

variable {changes : ChangeSet}

theorem isNormal_ofList_iff (entries : List String) :
    (ofList entries).IsNormal ↔ ∀ entry ∈ entries, Path.IsOrderly entry := by
  constructor
  · intro hnormal entry hentry
    cases hstands : entry? entry with
    | none => exact Path.isOrderly_of_dropped hstands
    | some p =>
      have hp : p ∈ (ofList entries).paths := mem_paths_ofList.mpr ⟨entry, hentry, hstands⟩
      exact (Path.isNormal_iff_isOrderly hstands).mp (hnormal p hp)
  · intro horderly p hp
    obtain ⟨entry, hentry, hstands⟩ := mem_paths_ofList.mp hp
    exact (Path.isNormal_iff_isOrderly hstands).mpr (horderly entry hentry)

/-- A path in normal form stands for itself. -/
theorem entry?_of_isNormal {p : String} (h : Path.IsNormal p) : entry? p = some p := by
  refine entry?_eq_some_iff.mpr ⟨h.notBlank, h.normalized, ?_⟩
  rintro rfl
  cases h.notBlank

/-- The paths of a set make no more than a set in normal form. A path that is not in normal form would
come from a longer one of the set, with `./` before it, that one from a longer one still, and so on. -/
theorem isNormal_of_ofList_paths (h : ofList changes.paths = changes) : changes.IsNormal := by
  obtain ⟨bound, hlengths⟩ := (changes.paths.map fun p => p.toList.length).toFinset.exists_le
  have hbound : ∀ p ∈ changes.paths, p.toList.length ≤ bound := fun p hp =>
    hlengths _ (List.mem_toFinset.mpr (List.mem_map_of_mem hp))
  intro p hp
  induction hroom : bound - p.toList.length using Nat.strongRecOn generalizing p with
  | ind room ih =>
    rw [← h] at hp
    obtain ⟨q, hq, hstands⟩ := mem_paths_ofList.mp hp
    obtain ⟨hblank, hnormalize, -⟩ := entry?_eq_some_iff.mp hstands
    by_cases hdot : ['.', '/'] <+: q.toList
    · obtain ⟨rest, hrest⟩ := hdot
      have hp : p.toList = rest := by
        rw [← hnormalize, Path.toList_normalize, ← hrest]
        rfl
      have hlonger : q.toList.length = p.toList.length + 2 := by
        rw [hp, ← hrest]
        rfl
      have hfits := hbound q hq
      have hq' := ih (bound - q.toList.length) (by omega) q hq rfl
      exact absurd ⟨rest, hrest⟩ (Path.normalize_eq_self_iff.mp hq'.normalized)
    · rw [Path.normalize_of_direct hdot] at hnormalize
      subst hnormalize
      exact ⟨hblank, Path.normalize_of_direct hdot⟩

theorem ofList_paths_of_isNormal (h : changes.IsNormal) : ofList changes.paths = changes :=
  ofList_eq_of_entries (fun p hp => entry?_of_isNormal (h p hp)) (fun _ he => Or.inr he)
    fun _ hp => hp

theorem map_normalize_paths (h : changes.IsNormal) :
    changes.paths.map Path.normalize = changes.paths := by
  rw [List.map_congr_left fun p hp => (h p hp).normalized, List.map_id']

theorem nodup_paths (changes : ChangeSet) : changes.paths.Nodup :=
  changes.ascends.imp fun hlt heq => absurd (heq ▸ hlt) (String.lt_irrefl _)

/--
**A change set is in normal form if its entries are orderly**, and only then.

Whatever entries are added to the empty set: each path of the set is in normal form exactly if each
entry has nothing behind its leading `./`, or a path in normal form; and that is so exactly if adding
the paths of the set makes the same set again. Then no two paths of the set are the same path to
matching, and no file counts twice towards a label.
-/
theorem ofList_isNormal_iff (entries : List String) :
    let changes := ofList entries
    (changes.IsNormal ↔ ∀ entry ∈ entries, Path.IsOrderly entry)
      ∧ (changes.IsNormal ↔ ofList changes.paths = changes)
      ∧ ((∀ entry ∈ entries, Path.IsOrderly entry) →
          (∀ p ∈ changes.paths, ∀ q ∈ changes.paths,
              Path.normalizeChars p.toList = Path.normalizeChars q.toList → p = q)
          ∧ ∀ table l found, (l, found) ∈ (changes.evaluate table).labels.entries →
              (found.files.map Path.normalize).Nodup) := by
  intro changes
  have horderly : changes.IsNormal ↔ ∀ entry ∈ entries, Path.IsOrderly entry :=
    isNormal_ofList_iff entries
  refine ⟨horderly, ⟨ofList_paths_of_isNormal, isNormal_of_ofList_paths⟩, fun h => ⟨?_, ?_⟩⟩
  · intro p hp q hq hsame
    have hnormal := horderly.mpr h
    have hnormalize : Path.normalize p = Path.normalize q := by
      rw [Path.normalize, hsame, Path.normalize]
    rwa [(hnormal p hp).normalized, (hnormal q hq).normalized] at hnormalize
  · intro table l found hmem
    obtain ⟨rule, _, _, hfound⟩ := found_of_mem_labels_evaluate hmem
    have hall : (changes.paths.map Path.normalize).Nodup := by
      rw [map_normalize_paths (horderly.mpr h)]
      exact changes.nodup_paths
    rw [hfound.files]
    exact hall.sublist (List.filter_sublist.map _)

/-- Two spellings of one file, and two entries that stand for none. -/
theorem ofList_isNormal_iff_spelled :
    let entries := ["./Mathlib/Algebra/Group.lean", "./", "Mathlib/Algebra/Group.lean", " "]
    let changes := ofList entries
    (∀ entry ∈ entries, Path.IsOrderly entry) ∧ changes.IsNormal
      ∧ ofList changes.paths = changes
      ∧ ∃ found, ("t-algebra", found) ∈ (changes.evaluate .twoTopics).labels.entries
          ∧ (found.files.map Path.normalize).Nodup := by
  intro entries changes
  have horderly : ∀ entry ∈ entries, Path.IsOrderly entry := by decide
  obtain ⟨hentries, hagain, hconsequences⟩ := ofList_isNormal_iff entries
  have hnormal : changes.IsNormal := hentries.mpr horderly
  let found : LabelMatch := ⟨["Mathlib/Algebra/Group.lean"], ⟨2, 15⟩⟩
  have hfound : ("t-algebra", found) ∈ (changes.evaluate .twoTopics).labels.entries := by
    decide +kernel
  exact ⟨horderly, hnormal, hagain.mp hnormal, found, hfound,
    (hconsequences horderly).2 _ _ _ hfound⟩

/-- Behind `././` one `./` is left, so that a file counts twice, and behind `./` a blank may be. -/
theorem ofList_not_normal :
    let changes := ofList ["././Mathlib/Algebra/Group.lean", "Mathlib/Algebra/Group.lean", "./ "]
    changes.paths = [" ", "./Mathlib/Algebra/Group.lean", "Mathlib/Algebra/Group.lean"]
      ∧ ¬(∀ p ∈ changes.paths, Text.allBlank p = false)
      ∧ ¬(∀ p ∈ changes.paths, Path.normalize p = p)
      ∧ ofList changes.paths ≠ changes
      ∧ ("t-algebra", LabelMatch.mk
          ["./Mathlib/Algebra/Group.lean", "Mathlib/Algebra/Group.lean"] ⟨2, 15⟩)
        ∈ (changes.evaluate .twoTopics).labels.entries := by
  intro changes
  have hpaths : changes.paths
      = [" ", "./Mathlib/Algebra/Group.lean", "Mathlib/Algebra/Group.lean"] := by decide +kernel
  have hblank : ¬(∀ p ∈ changes.paths, Text.allBlank p = false) := by
    rw [hpaths]
    decide
  refine ⟨hpaths, hblank, ?_, fun hagain => hblank fun p hp => ?_, by decide +kernel⟩
  · rw [hpaths]
    decide
  · exact (isNormal_of_ofList_paths hagain p hp).notBlank

end ChangeSet

end PathLabels
