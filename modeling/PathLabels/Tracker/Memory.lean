import PathLabels.Tracker.Basic

/-!
# Trackers in memory

A tracker for one pull request whose labels are a list, with the faults of its calls laid down
beforehand. A call that fails has no effect, and adding a label that is there changes nothing.
-/

namespace PathLabels

/-- The state of a tracker in memory. -/
structure MemoryTracker where
  /-- The labels, in the order in which they were added. -/
  labels : List String := []
  /-- For each coming call of `list`, the fault that it ends in, if any. -/
  listFaults : List (Option TrackerError) := []
  /-- For each coming call of `add`, the fault that it ends in, if any. -/
  addFaults : List (Option TrackerError) := []
  /-- The labels that are refused, and how. -/
  rejected : List (String × TrackerError) := []

namespace MemoryTracker

/-- Puts a label after the others unless it is among them. -/
def addLabel (labels : List String) (label : String) : List String :=
  if label ∈ labels then labels else labels ++ [label]

/-- The answer to a listing, and the state after it. -/
def list (s : MemoryTracker) : Except TrackerError (List String) × MemoryTracker :=
  let s' := { s with listFaults := s.listFaults.tail }
  match s.listFaults.head?.join with
  | some e => (.error e, s')
  | none => (.ok s.labels, s')

/-- The fault that adding a label ends in, if any. -/
def addFault? (s : MemoryTracker) (label : String) : Option TrackerError :=
  s.addFaults.head?.join.or (s.rejected.lookup label)

/-- The answer to adding a label, and the state after it. -/
def add (s : MemoryTracker) (label : String) : Except TrackerError Unit × MemoryTracker :=
  let s' := { s with addFaults := s.addFaults.tail }
  match s.addFault? label with
  | some e => (.error e, s')
  | none => (.ok (), { s' with labels := addLabel s.labels label })

/-- A tracker in memory; time makes no difference to it. -/
def tracker : Tracker (StateM MemoryTracker) where
  list _ := fun s => s.list
  add _ label := fun s => s.add label
  pause _ := pure ()

end MemoryTracker

end PathLabels
