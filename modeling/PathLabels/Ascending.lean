/-!
# Ascending lists of texts

Sets of paths and maps from labels keep their keys in strictly ascending order, which is the order
of code points and so that of the UTF-8 forms. `insert` puts a text into its place; a text that is
already there stays.
-/

namespace PathLabels.Ascending

/-- Each text is less than all after it. -/
def Ascends (s : List String) : Prop := s.Pairwise (· < ·)

instance (s : List String) : Decidable (Ascends s) := inferInstanceAs (Decidable (s.Pairwise _))

/-- Puts a text into its place. -/
def insert (x : String) : List String → List String
  | [] => [x]
  | y :: s => if x < y then x :: y :: s else if x = y then y :: s else y :: insert x s

/-- The ascending list of the given texts, each once. -/
def ofList (s : List String) : List String := s.foldl (fun acc x => insert x acc) []

theorem ascends_nil : Ascends [] := List.Pairwise.nil

theorem lt_of_not_lt {x y : String} (h : ¬x < y) (hne : x ≠ y) : y < x := by
  rcases Std.lt_trichotomy x y with h' | h' | h'
  · exact absurd h' h
  · exact absurd h' hne
  · exact h'

@[simp] theorem mem_insert {x z : String} {s : List String} :
    z ∈ insert x s ↔ z = x ∨ z ∈ s := by
  induction s with
  | nil => simp [insert]
  | cons y s ih =>
    simp only [insert]
    split
    · simp
    · split
      · rename_i h; simp [h]
      · simp only [List.mem_cons, ih]
        constructor
        · rintro (h | h | h) <;> simp [h]
        · rintro (h | h | h) <;> simp [h]

theorem ascends_insert {x : String} {s : List String} (h : Ascends s) : Ascends (insert x s) := by
  induction s with
  | nil => simp [insert, Ascends]
  | cons y s ih =>
    obtain ⟨hy, hs⟩ := List.pairwise_cons.mp h
    simp only [insert]
    split
    · rename_i hxy
      refine List.pairwise_cons.mpr ⟨fun z hz => ?_, h⟩
      rcases List.mem_cons.mp hz with rfl | hz
      · exact hxy
      · exact String.lt_trans hxy (hy z hz)
    · split
      · exact h
      · rename_i hxy hne
        refine List.pairwise_cons.mpr ⟨fun z hz => ?_, ih hs⟩
        rcases mem_insert.mp hz with rfl | hz
        · exact lt_of_not_lt hxy hne
        · exact hy z hz

theorem ascends_foldl_insert {s acc : List String} (h : Ascends acc) :
    Ascends (s.foldl (fun acc x => insert x acc) acc) := by
  induction s generalizing acc with
  | nil => exact h
  | cons x s ih => exact ih (ascends_insert h)

theorem mem_foldl_insert {z : String} {s acc : List String} :
    z ∈ s.foldl (fun acc x => insert x acc) acc ↔ z ∈ s ∨ z ∈ acc := by
  induction s generalizing acc with
  | nil => simp
  | cons x s ih =>
    simp only [List.foldl_cons, ih, mem_insert, List.mem_cons]
    constructor
    · rintro (h | h | h) <;> simp [h]
    · rintro ((h | h) | h) <;> simp [h]

theorem ascends_ofList (s : List String) : Ascends (ofList s) :=
  ascends_foldl_insert List.Pairwise.nil

@[simp] theorem mem_ofList {z : String} {s : List String} : z ∈ ofList s ↔ z ∈ s := by
  simp [ofList, mem_foldl_insert]

/-- The first of an ascending list is the smallest of its texts. -/
theorem head?_ofList_eq_some_iff {x : String} {s : List String} :
    (ofList s).head? = some x ↔ x ∈ s ∧ ∀ y ∈ s, x ≤ y := by
  have hascends := ascends_ofList s
  have hmem : ∀ y, y ∈ ofList s ↔ y ∈ s := fun _ => mem_ofList
  generalize ofList s = t at hascends hmem
  cases t with
  | nil => exact ⟨nofun, fun h => nomatch (hmem x).mpr h.1⟩
  | cons y t =>
    obtain ⟨hy, -⟩ := List.pairwise_cons.mp hascends
    have hleast : ∀ z ∈ s, y ≤ z := by
      intro z hz
      rcases List.mem_cons.mp ((hmem z).mpr hz) with rfl | hz
      · exact String.le_refl z
      · exact String.lt_asymm (hy z hz)
    rw [List.head?_cons, Option.some.injEq]
    constructor
    · rintro rfl
      exact ⟨(hmem y).mp List.mem_cons_self, hleast⟩
    · rintro ⟨hx, hle⟩
      exact String.le_antisymm (hleast x hx) (hle y ((hmem y).mp List.mem_cons_self))

/-- Two ascending lists with the same texts are equal. -/
theorem eq_of_mem_iff {s t : List String} (hs : Ascends s) (ht : Ascends t)
    (h : ∀ z, z ∈ s ↔ z ∈ t) : s = t := by
  induction s generalizing t with
  | nil =>
    cases t with
    | nil => rfl
    | cons y t => exact absurd ((h y).mpr List.mem_cons_self) (by simp)
  | cons x s ih =>
    cases t with
    | nil => exact absurd ((h x).mp List.mem_cons_self) (by simp)
    | cons y t =>
      obtain ⟨hx, hs'⟩ := List.pairwise_cons.mp hs
      obtain ⟨hy, ht'⟩ := List.pairwise_cons.mp ht
      have hxy : x = y := by
        rcases List.mem_cons.mp ((h x).mp List.mem_cons_self) with h1 | h1
        · exact h1
        · rcases List.mem_cons.mp ((h y).mpr List.mem_cons_self) with h2 | h2
          · exact h2.symm
          · exact absurd (String.lt_trans (hy x h1) (hx y h2)) (String.lt_irrefl _)
      subst hxy
      refine congrArg _ (ih hs' ht' fun z => ⟨fun hz => ?_, fun hz => ?_⟩)
      · rcases List.mem_cons.mp ((h z).mp (List.mem_cons_of_mem _ hz)) with h1 | h1
        · exact absurd (h1 ▸ hx z hz) (String.lt_irrefl _)
        · exact h1
      · rcases List.mem_cons.mp ((h z).mpr (List.mem_cons_of_mem _ hz)) with h1 | h1
        · exact absurd (h1 ▸ hy z hz) (String.lt_irrefl _)
        · exact h1

end PathLabels.Ascending
