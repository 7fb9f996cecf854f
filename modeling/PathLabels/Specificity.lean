/-!
# Specificity

How literal a pattern is: the number of literal components first, then the number of literal
bytes. Patterns with a longer literal beginning win over others.
-/

namespace PathLabels

/-- How literal a pattern is. -/
structure Specificity where
  /-- The number of complete literal components. -/
  components : Nat
  /-- The number of literal bytes. -/
  chars : Nat
  deriving Repr, DecidableEq, Inhabited

namespace Specificity

/-- Components count first, then bytes. -/
instance : LE Specificity where
  le a b := a.components < b.components ∨ (a.components = b.components ∧ a.chars ≤ b.chars)

instance : LT Specificity where
  lt a b := a.components < b.components ∨ (a.components = b.components ∧ a.chars < b.chars)

instance (a b : Specificity) : Decidable (a ≤ b) :=
  inferInstanceAs (Decidable (_ ∨ _))

instance (a b : Specificity) : Decidable (a < b) :=
  inferInstanceAs (Decidable (_ ∨ _))

/-- The greater of two specificities. -/
def max (a b : Specificity) : Specificity := if a ≤ b then b else a

/-- The greatest of a list of specificities. -/
def best? : List Specificity → Option Specificity
  | [] => none
  | s :: rest => some (rest.foldl max s)

theorem le_def {a b : Specificity} :
    a ≤ b ↔ a.components < b.components ∨ (a.components = b.components ∧ a.chars ≤ b.chars) :=
  Iff.rfl

theorem lt_def {a b : Specificity} :
    a < b ↔ a.components < b.components ∨ (a.components = b.components ∧ a.chars < b.chars) :=
  Iff.rfl

@[simp] protected theorem le_refl (a : Specificity) : a ≤ a := Or.inr ⟨rfl, Nat.le_refl _⟩

protected theorem le_total (a b : Specificity) : a ≤ b ∨ b ≤ a := by
  simp only [le_def]; omega

protected theorem le_trans {a b c : Specificity} (h : a ≤ b) (h' : b ≤ c) : a ≤ c := by
  simp only [le_def] at *; omega

protected theorem lt_trans {a b c : Specificity} (h : a < b) (h' : b < c) : a < c := by
  simp only [lt_def] at *; omega

protected theorem le_of_lt {a b : Specificity} (h : a < b) : a ≤ b := by
  simp only [lt_def, le_def] at *; omega

protected theorem not_lt_of_le {a b : Specificity} (h : a ≤ b) : ¬b < a := by
  simp only [lt_def, le_def] at *; omega

protected theorem lt_trichotomy (a b : Specificity) : a < b ∨ a = b ∨ b < a := by
  cases a; cases b; simp only [lt_def, mk.injEq]; omega

protected theorem le_antisymm {a b : Specificity} (h : a ≤ b) (h' : b ≤ a) : a = b := by
  cases a; cases b; simp only [le_def, mk.injEq] at *; omega

end Specificity

end PathLabels
