import PathLabels.Decision
import PathLabels.Report

/-!
# Applying decisions

The labels of a decision are added one at a time, so a label that fails does not keep the others
from being added. A call that fails for a transient reason is made once more after a pause. Labels
are never removed.
-/

namespace PathLabels

/-- How decisions are applied. -/
structure Applier where
  /-- The pause before a call is made again. -/
  retryDelay : Duration := .ofSeconds 2
  /-- Whether a pull request is left alone that carries another label of the table. -/
  skipIfLabeled : Bool
  deriving Repr, DecidableEq

namespace Applier

variable {m : Type → Type} [Monad m] {α : Type}

/-- The result of a call and how many times it was made. -/
structure Tried (α : Type) where
  result : Except TrackerError α
  attempts : Nat

/-- Makes a call, which is the attempt with the given number, and makes it again after a transient
fault, at most `retries` times. -/
def attempt (pause : m Unit) (call : m (Except TrackerError α)) (number : Nat) :
    (retries : Nat) → m (Tried α)
  | 0 => do return ⟨← call, number⟩
  | retries + 1 => do
    match ← call with
    | .ok a => return ⟨.ok a, number⟩
    | .error e =>
      if e.isTransient then do
        pause
        attempt pause call (number + 1) retries
      else return ⟨.error e, number⟩

/-- Makes a call, and once more if it fails for a transient reason. -/
def withRetry (a : Applier) (tracker : Tracker m) (call : m (Except TrackerError α)) :
    m (Tried α) :=
  attempt (tracker.pause a.retryDelay) call 1 1

/-- The labels on the pull request as far as they can be read; if they cannot, none. -/
def view (a : Applier) (tracker : Tracker m) (pr : Nat) : m (List String) := do
  match (← a.withRetry tracker (tracker.list pr)).result with
  | .ok labels => return labels
  | .error _ => return []

/-- The label for which a pull request with the labels `view` is left alone: the smallest one of
the table that the decision does not hold. A pull request that carries labels of the decision only
is one whose application was not completed. -/
def skipLabel? (a : Applier) (table : RuleTable) (decision : Decision) (view : List String) :
    Option String :=
  if a.skipIfLabeled then
    (Ascending.ofList (view.filter fun l => table.isKnownLabel l && l ∉ decision.labels)).head?
  else none

/-- Adds one label of a decision unless it is there. -/
def applyLabel (a : Applier) (tracker : Tracker m) (pr : Nat) (view : List String)
    (report : Report) (label : String) : m Report := do
  if label ∈ view then
    return { report with alreadyPresent := report.alreadyPresent ++ [label] }
  else
    let tried ← a.withRetry tracker (tracker.add pr label)
    match tried.result with
    | .ok () => return { report with applied := report.applied ++ [label] }
    | .error e =>
      return { report with failed := report.failed ++ [⟨label, tried.attempts, e⟩] }

/-- Sees to it that the labels of a decision are on a pull request. -/
def apply (a : Applier) (tracker : Tracker m) (pr : Nat) (decision : Decision)
    (table : RuleTable) : m Report := do
  if decision.isEmpty then return {}
  else
    let view ← a.view tracker pr
    match a.skipLabel? table decision view with
    | some label => return { skippedFor := some label }
    | none => decision.labels.foldlM (a.applyLabel tracker pr view) {}

end Applier

end PathLabels
