import PathLabels.Tracker.Basic

/-!
# Reports

What applying a decision did to each of its labels, and the outcome as a whole.
-/

namespace PathLabels

/-- A label that could not be added. -/
structure ApplyError where
  label : String
  /-- How many times adding it was tried. -/
  attempts : Nat
  /-- The fault of the last try. -/
  cause : TrackerError
  deriving Repr, DecidableEq

/-- The text shown for a label that could not be added. -/
def ApplyError.message (e : ApplyError) : String :=
  s!"failed to add label '{e.label}' after {e.attempts} attempt(s): {e.cause.message}"

/-- The result of applying a decision as a whole. -/
inductive Outcome where
  /-- There was nothing to add. -/
  | nothing
  /-- The pull request carries another label of the table. -/
  | skipped
  /-- Every label is there. -/
  | complete
  /-- Some labels are there and some could not be added. -/
  | incomplete
  /-- No label could be added. -/
  | failed
  deriving Repr, DecidableEq

/-- What applying a decision did. -/
structure Report where
  applied : List String := []
  alreadyPresent : List String := []
  failed : List ApplyError := []
  /-- The label for which the pull request was left alone. -/
  skippedFor : Option String := none
  deriving Repr, DecidableEq, Inhabited

namespace Report

/-- Whether no label is there. -/
def nonePresent (r : Report) : Bool := r.applied.isEmpty && r.alreadyPresent.isEmpty

def hasFailures (r : Report) : Bool := !r.failed.isEmpty

def outcome (r : Report) : Outcome :=
  if r.skippedFor.isSome then .skipped
  else if r.hasFailures then if r.nonePresent then .failed else .incomplete
  else if r.nonePresent then .nothing
  else .complete

end Report

end PathLabels
