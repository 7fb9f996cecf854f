import PathLabels.Duration
import PathLabels.Http.Fault

/-!
# Trackers

A tracker holds the labels of pull requests. It can list them and add one, and either call may
fail. Only a transient fault is worth another try.
-/

namespace PathLabels

/-- Why a tracker did not do what it was asked for. -/
inductive TrackerError where
  | http (fault : HttpFault)
  /-- The tracker answered with a status that is not a success. -/
  | api (status : Nat) (message : String)
  | rateLimitExceeded (resetIn : Duration)
  | authenticationFailed (message : String)
  | serialization (message : String)
  deriving Repr, DecidableEq

namespace TrackerError

/-- The text shown for a fault. -/
def message : TrackerError → String
  | http fault => s!"HTTP request failed: {fault.message}"
  | api status message => s!"GitHub API error: {status} - {message}"
  | rateLimitExceeded resetIn => s!"Rate limit exceeded, reset in {resetIn.text}"
  | authenticationFailed message => s!"Authentication failed: {message}"
  | serialization message => s!"Serialization error: {message}"

/-- Whether one more try has a reasonable chance. -/
def isTransient : TrackerError → Bool
  | http (.noResponse _) => true
  | http _ => false
  | api status _ => status == 429 || 500 ≤ status
  | rateLimitExceeded _ => false
  | authenticationFailed _ => false
  | serialization _ => false

end TrackerError

/-- The operations of a tracker, as programs of the monad `m`. -/
structure Tracker (m : Type → Type) where
  /-- The labels on a pull request. -/
  list : (pr : Nat) → m (Except TrackerError (List String))
  /-- Adds a label to a pull request. -/
  add : (pr : Nat) → (label : String) → m (Except TrackerError Unit)
  /-- Lets time pass. -/
  pause : Duration → m Unit

end PathLabels
