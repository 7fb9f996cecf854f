/-!
# Faults of requests

A request can fail before it is sent, on its way, and by an answer that is not what was asked for. A
server may send a request on to another address; this is followed, and a chain of addresses that
does not end is a fault of its own.
-/

namespace PathLabels

/-- Why a request had no usable answer. -/
inductive HttpFault where
  /-- The request was sent, to `url` in the end, and nothing came back. -/
  | noResponse (url : String)
  /-- The request was sent on from one address to the next, to `url` in the end, and no further. -/
  | redirected (url : String)
  /-- The body of the answer is not what was asked for. -/
  | undecodableBody
  /-- The request could not be made; `url` is its address if the address itself is well formed. -/
  | invalidRequest (url : Option String)
  deriving Repr, DecidableEq

/-- The text shown for a fault. -/
def HttpFault.message : HttpFault → String
  | .noResponse url => s!"error sending request for url ({url})"
  | .redirected url => s!"error following redirect for url ({url})"
  | .undecodableBody => "error decoding response body"
  | .invalidRequest none => "builder error"
  | .invalidRequest (some url) => s!"builder error for url ({url})"

end PathLabels
