import PathLabels.Http.Message
import PathLabels.Text.Integers

/-!
# Request quotas

A server grants a number of requests until its quota is reset, and says in the headers of its
responses how many remain and when the reset is. Either header may be missing, so the two halves of
the quota that a client keeps need not come from the same response. While no request remains and the
reset lies in the future, a client sends nothing.
-/

namespace PathLabels.GitHub

open Http

/-- What a client knows of its quota. -/
structure Quota where
  /-- How many requests remain. -/
  remaining : Int := 5000
  /-- The uptime in nanoseconds at which the quota is reset. There is no bound on it: a reset so far
  away that no clock can show it is kept as it is. -/
  resetAt : Option Nat := none
  deriving Repr, DecidableEq, Inhabited

/-- How many requests remain, by the headers of a response. -/
def remaining? (r : Response) : Option Int :=
  (r.header? "x-ratelimit-remaining").bind Text.int32?

/-- The Unix time of the reset, by the headers of a response. -/
def resetTime? (r : Response) : Option Int :=
  (r.header? "x-ratelimit-reset").bind Text.int64?

/-- The seconds from a time to a later one, in words of 64 bits; none if the time is not later. -/
def secondsUntil (time now : Int) : Nat :=
  let difference := Int64.ofInt time - Int64.ofInt now
  if difference < 0 then 0 else difference.toInt.toNat

/-- How long it is until the reset that a response announces. -/
def resetIn? (r : Response) (clock : Clock) : Option Duration :=
  (resetTime? r).map fun time => .ofSeconds (secondsUntil time clock.unixSeconds)

/-- How long it is until the reset, if a response says that no request remains. -/
def exhausted? (r : Response) (clock : Clock) : Option Duration :=
  if remaining? r = some 0 then resetIn? r clock else none

namespace Quota

/-- How long a client has to wait before it may send a request, if it has to wait. -/
def refusal? (q : Quota) (clock : Clock) : Option Duration :=
  q.resetAt.bind fun reset =>
    if q.remaining ≤ 0 ∧ clock.uptime < reset then some ⟨reset - clock.uptime⟩ else none

/-- The quota after a response that came at the given time. -/
def noted (q : Quota) (r : Response) (clock : Clock) : Quota where
  remaining := (remaining? r).getD q.remaining
  resetAt := ((resetIn? r clock).map fun d => clock.uptime + d.nanos).or q.resetAt

end Quota

end PathLabels.GitHub
