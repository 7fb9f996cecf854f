import PathLabels.Tracker.Basic

/-!
# Recorded trackers

`Tracker.recorded` is a tracker that does what another one does and writes down each call, so what
a program asks of a tracker can be stated apart from what the tracker does.
-/

namespace PathLabels

/-- A call to a tracker. -/
inductive TrackerCall where
  | list (pr : Nat)
  | add (pr : Nat) (label : String)
  deriving Repr, DecidableEq

/-- What has been asked of a tracker. -/
structure Journal where
  /-- The calls, in order. -/
  calls : List TrackerCall := []
  /-- How long the program has paused, all pauses together. -/
  slept : Duration := .zero
  deriving Repr, DecidableEq, Inhabited

namespace Journal

def call (journal : Journal) (c : TrackerCall) : Journal :=
  { journal with calls := journal.calls ++ [c] }

def sleep (journal : Journal) (d : Duration) : Journal :=
  { journal with slept := journal.slept + d }

end Journal

namespace Tracker

variable {m : Type → Type} [Monad m]

/-- The tracker that also writes down what is asked of it. -/
def recorded (tracker : Tracker m) : Tracker (StateT Journal m) where
  list pr := do
    modify fun journal => journal.call (.list pr)
    tracker.list pr
  add pr label := do
    modify fun journal => journal.call (.add pr label)
    tracker.add pr label
  pause d := do
    modify fun journal => journal.sleep d
    tracker.pause d

end Tracker

end PathLabels
