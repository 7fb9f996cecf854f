import PathLabels.Config
import PathLabels.GitHub.Quota
import PathLabels.Json.Fields
import PathLabels.Json.Writing
import PathLabels.Tracker.Basic

/-!
# The GitHub client

A tracker over the REST interface of GitHub, where a pull request is an issue and its labels are a
resource of their own. A client keeps its quota from one request to the next, so what it does is a
program with the client as its state.
-/

namespace PathLabels.GitHub

open Http

/-- A client for one repository. -/
structure Client where
  /-- The address of the interface, without slashes at its end. -/
  baseUrl : String
  token : String
  repository : Repository
  quota : Quota := {}
  deriving Repr, DecidableEq

/-- The name under which a client makes itself known. -/
def userAgent : String := "autolabel/0.1.0"

/-! ## Bodies -/

/-- The names of the labels that a body lists. -/
def labelNames? (body : List UInt8) : Option (List String) :=
  Json.ofBody? (Json.fields "name") body

/-- The fault that a response of no success reports: by its message, or by all of its body. -/
def apiError (r : Response) : TrackerError :=
  let text := Text.decodeLossy r.body
  .api r.status ((Json.ofBody? (Json.field "message") (Text.bytes text)).getD text)

namespace Client

/-- The client for a target. -/
def ofTarget (target : Target) : Except TrackerError Client :=
  if Text.allBlank target.token then .error (.authenticationFailed "empty API token")
  else .ok {
    baseUrl := String.ofList (target.apiUrl.toList.reverse.dropWhile (· == '/')).reverse
    token := target.token, repository := target.repository }

/-- The address of the labels of a pull request. -/
def labelsUrl (c : Client) (pr : Nat) : String :=
  s!"{c.baseUrl}/repos/{c.repository.owner}/{c.repository.name}/issues/{pr}/labels"

/-- The text by which a client identifies itself. -/
def authorization (c : Client) : String := "Bearer " ++ c.token

/-- The request to an address. Faults of the address come before those of the token, except that
the scheme is looked at last. -/
def request (c : Client) (method : Method) (address : String) (body : Option Json.Value) :
    Except HttpFault Request :=
  match Url.ofText? address with
  | none => .error (.invalidRequest none)
  | some url =>
    if !url.hasHost then .error (.invalidRequest url.text)
    else if !isHeaderText c.authorization then .error (.invalidRequest none)
    else if url.scheme ≠ "http" ∧ url.scheme ≠ "https" then .error (.invalidRequest url.text)
    else .ok {
      method, url
      authorization := c.authorization
      accept := "application/vnd.github+json"
      apiVersion := "2022-11-28"
      userAgent
      contentType := body.map fun _ => "application/json"
      body := body.map Json.Value.compact }

/-- What a client makes of a response. A status that refuses the token or tells of an exhausted
quota is a fault whatever was asked for. -/
def accept (r : Response) (clock : Clock) : Except TrackerError Response :=
  if r.status = 401 then .error (.authenticationFailed "token rejected by GitHub")
  else if r.status = 403 ∨ r.status = 429 then
    match exhausted? r clock with
    | some resetIn => .error (.rateLimitExceeded resetIn)
    | none => .ok r
  else .ok r

variable {m : Type → Type} [Monad m]

/-- Makes a request unless the quota forbids it, and takes note of the quota in the response. -/
def perform (network : Network m) (method : Method) (address : String)
    (body : Option Json.Value := none) : StateT Client m (Except TrackerError Response) := do
  let c ← get
  match c.quota.refusal? (← network.clock) with
  | some resetIn => return .error (.rateLimitExceeded resetIn)
  | none =>
    match c.request method address body with
    | .error fault => return .error (.http fault)
    | .ok request =>
      match ← (network.send request : m _) with
      | .error fault => return .error (.http fault)
      | .ok r =>
        let clock ← network.clock
        set { c with quota := c.quota.noted r clock }
        return accept r clock

/-- Lists the labels of a pull request. -/
def list (network : Network m) (pr : Nat) :
    StateT Client m (Except TrackerError (List String)) := do
  match ← perform network .get ((← get).labelsUrl pr ++ "?per_page=100") with
  | .error e => return .error e
  | .ok r =>
    if !r.isSuccess then return .error (apiError r)
    else match labelNames? r.body with
      | some names => return .ok names
      | none => return .error (.http .undecodableBody)

/-- Adds a label to a pull request. -/
def add (network : Network m) (pr : Nat) (label : String) :
    StateT Client m (Except TrackerError Unit) := do
  let body := Json.Value.object [("labels", .ofStrings [label])]
  match ← perform network .post ((← get).labelsUrl pr) (some body) with
  | .error e => return .error e
  | .ok r => if r.isSuccess then return .ok () else return .error (apiError r)

/-- A client as a tracker. -/
def tracker (network : Network m) : Tracker (StateT Client m) where
  list pr := list network pr
  add pr label := add network pr label
  pause d := liftM (network.wait d)

end Client

end PathLabels.GitHub
