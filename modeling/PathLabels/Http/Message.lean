import PathLabels.Duration
import PathLabels.Http.Fault
import PathLabels.Http.Url

/-!
# Messages

Requests and responses as far as a tracker needs them, and the network that carries them.
-/

namespace PathLabels.Http

/-- The method of a request. -/
inductive Method where
  | get
  | post
  deriving Repr, DecidableEq

/-- The name of a method. -/
def Method.name : Method → String
  | .get => "GET"
  | .post => "POST"

/-- A request. -/
structure Request where
  method : Method
  url : Url
  authorization : String
  accept : String
  apiVersion : String
  userAgent : String
  contentType : Option String := none
  body : Option String := none
  deriving Repr, DecidableEq

/-- Whether a text may stand in a header: it has no control characters but tabs. -/
def isHeaderText (s : String) : Bool :=
  s.toList.all fun c => c == '\t' || (0x20 ≤ c.toNat && c.toNat != 0x7F)

/-- A response. -/
structure Response where
  status : Nat := 200
  headers : List (String × String) := []
  body : List UInt8 := []
  deriving Repr, DecidableEq, Inhabited

namespace Response

/-- Whether the request was done. -/
def isSuccess (r : Response) : Bool := 200 ≤ r.status && r.status < 300

/-- The first header with a name; names are in lower case here and in any case in a response. -/
def header? (r : Response) (name : String) : Option String :=
  (r.headers.find? fun h => h.1.map Char.toLower == name).map Prod.snd

end Response

/-- The time, by the two clocks of a system, in nanoseconds. -/
structure Clock where
  /-- Since the system was started. -/
  uptime : Nat
  /-- Since the beginning of 1970. -/
  unixTime : Nat
  deriving Repr, DecidableEq, Inhabited

/-- The whole seconds since the beginning of 1970. -/
def Clock.unixSeconds (clock : Clock) : Nat := clock.unixTime / Duration.perSecond

/-- The clocks after some time has passed. -/
def Clock.advance (clock : Clock) (d : Duration) : Clock :=
  ⟨clock.uptime + d.nanos, clock.unixTime + d.nanos⟩

/-- A network as programs of the monad `m` use it. -/
structure Network (m : Type → Type) where
  clock : m Clock
  /-- Sends a request and waits for the response, which may fail to come. This is all that happens
  between the two: where the server sends the request on to another address, that is followed, and the
  response is that of the last address. What comes back before counts for nothing. -/
  send : Request → m (Except HttpFault Response)
  /-- Lets time pass. -/
  wait : Duration → m Unit

end PathLabels.Http
