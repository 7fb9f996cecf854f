import PathLabels.Http.Message

/-!
# Scripted networks

A network whose responses are laid down beforehand and given out one for each request. Without a
response, and once they are used up, a request fails: nothing comes back, or it is sent on without end.
Waiting lets the clocks advance together, and a response may take its time as well. A network that
cannot be reached receives nothing.
-/

namespace PathLabels.Http

/-- What happens to one request. -/
structure Reply where
  /-- The response; none if there is none in the end. -/
  response : Option Response
  /-- How long the response takes. -/
  delay : Duration := .zero
  deriving Repr, DecidableEq

/-- The state of a scripted network. -/
structure NetworkScript where
  replies : List Reply := []
  clock : Clock := ⟨0, 0⟩
  isReachable : Bool := true
  /-- Whether a request without a response has been sent on without end. -/
  redirects : Bool := false
  /-- The requests that have been received, in order. -/
  requests : List Request := []
  deriving Repr, DecidableEq, Inhabited

namespace NetworkScript

/-- How a request fails that is received and has no response. -/
def fault (s : NetworkScript) (request : Request) : HttpFault :=
  if s.redirects then .redirected request.url.text else .noResponse request.url.text

/-- Sends a request. -/
def send (s : NetworkScript) (request : Request) : Except HttpFault Response × NetworkScript :=
  if s.isReachable then
    let reply := s.replies.headD { response := none }
    ((reply.response.map .ok).getD (.error (s.fault request)),
      { s with replies := s.replies.tail, clock := s.clock.advance reply.delay,
               requests := s.requests ++ [request] })
  else (.error (.noResponse request.url.text), s)

/-- The scripted network. -/
def network : Network (StateM NetworkScript) where
  clock := fun s => (s.clock, s)
  send request := fun s => s.send request
  wait d := fun s => ((), { s with clock := s.clock.advance d })

end NetworkScript

end PathLabels.Http
