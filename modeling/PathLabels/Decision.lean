import PathLabels.Matching

/-!
# Decisions

The labels that matched are ranked under the policy of the table, and the first of them are taken,
as many as the cap allows.
-/

namespace PathLabels

/-- The labels that a run should add. -/
structure Decision where
  labels : List String
  policy : Policy
  deriving Repr, DecidableEq

namespace Decision

def empty (policy : Policy) : Decision := ⟨[], policy⟩

def isEmpty (decision : Decision) : Bool := decision.labels.isEmpty

/-- A label that matched, with its matches. -/
abbrev Candidate := String × LabelMatch

/-- More files come first, then the smaller label. -/
def byFiles (a b : Candidate) : Bool :=
  b.2.files.length < a.2.files.length
    || (a.2.files.length == b.2.files.length && !(b.1 < a.1 : Bool))

/-- The greater specificity comes first, then as in `byFiles`. -/
def bySpecificity (a b : Candidate) : Bool :=
  (b.2.specificity < a.2.specificity : Bool)
    || (a.2.specificity == b.2.specificity && byFiles a b)

/-- The candidates in the order of a policy; none if the policy wants a single one and there is
another number of them. -/
def rank (policy : Policy) (candidates : List Candidate) : List Candidate :=
  match policy with
  | .all => candidates.mergeSort byFiles
  | .longestPrefix => candidates.mergeSort bySpecificity
  | .unique => if candidates.length = 1 then candidates else []

/-- The first items of a list, all of them if there is no cap. -/
def takeCap {α : Type} (cap : Option Nat) (items : List α) : List α :=
  match cap with
  | none => items
  | some n => items.take n

end Decision

/-- Resolves matches into a decision. -/
def MatchResult.decide (result : MatchResult) (settings : Settings) : Decision :=
  let ranked := Decision.rank settings.policy result.labels.entries
  { labels := (Decision.takeCap settings.cap ranked).map Prod.fst, policy := settings.policy }

/-- Matches a change set and resolves the matches. -/
def ChangeSet.decision (changes : ChangeSet) (table : RuleTable) : Decision :=
  (changes.evaluate table).decide table.settings

end PathLabels
