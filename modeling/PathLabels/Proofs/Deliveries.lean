import PathLabels.Proofs.Evolution
import PathLabels.Proofs.Transcript

/-!
# What a client sends and hears

A client decides by its quota whether a request is sent, and its quota is made of the responses that
it has received. To speak about both, a network is recorded: each request that is sent is written down
with the response, if one came, and the time when that was known. `Performance` lists the four ways in
which a client performs a request, with the client, the record and the network before and after it,
and every call of a client, to list labels or to add one, goes in one of them.
-/

namespace PathLabels

open GitHub

/-- Answers can be compared. -/
instance decidableEqExcept {ε α : Type} [DecidableEq ε] [DecidableEq α] : DecidableEq (Except ε α)
  | .ok a, .ok b => decidable_of_iff (a = b) (Except.ok.injEq a b ▸ Iff.rfl)
  | .error e, .error f => decidable_of_iff (e = f) (Except.error.injEq e f ▸ Iff.rfl)
  | .ok _, .error _ => isFalse nofun
  | .error _, .ok _ => isFalse nofun

/-! ## Recording -/

namespace Http

/-- A request that was sent, with the response if one came, and the time when that was known. -/
structure Delivery where
  request : Request
  response : Option Response
  clock : Clock
  deriving Repr, DecidableEq

namespace Network

variable {σ κ : Type} (network : Network (StateM σ))

/-- The time that a network shows. -/
def now (s : σ) : Clock := (network.clock.run s).1

/-- The state once the time has been read. -/
def looked (s : σ) : σ := (network.clock.run s).2

/-- The response to a request, or why there is none. -/
def answer (request : Request) (s : σ) : Except HttpFault Response :=
  ((network.send request).run s).1

def response (request : Request) (s : σ) : Option Response := (network.answer request s).toOption

/-- The state once a request has been sent and answered, or given up. -/
def sent (request : Request) (s : σ) : σ := ((network.send request).run s).2

def waited (d : Duration) (s : σ) : σ := ((network.wait d).run s).2

/-- What is written down about a request. -/
def delivery (request : Request) (s : σ) : Delivery :=
  ⟨request, network.response request s, network.now (network.sent request s)⟩

theorem clock_delivery (request : Request) (s : σ) :
    (network.delivery request s).clock = network.now (network.sent request s) := rfl

/-- The network that also writes down what is sent over it. -/
def recorded : Network (StateM (List Delivery × σ)) where
  clock := fun w => (network.now w.2, (w.1, network.looked w.2))
  send request := fun w =>
    (network.answer request w.2,
      (w.1 ++ [network.delivery request w.2], network.sent request w.2))
  wait d := fun w => ((), (w.1, network.waited d w.2))

@[simp] theorem now_recorded (log : List Delivery) (s : σ) :
    network.recorded.now (log, s) = network.now s := rfl

@[simp] theorem looked_recorded (log : List Delivery) (s : σ) :
    network.recorded.looked (log, s) = (log, network.looked s) := rfl

@[simp] theorem answer_recorded (request : Request) (log : List Delivery) (s : σ) :
    network.recorded.answer request (log, s) = network.answer request s := rfl

@[simp] theorem sent_recorded (request : Request) (log : List Delivery) (s : σ) :
    network.recorded.sent request (log, s)
      = (log ++ [network.delivery request s], network.sent request s) := rfl

theorem run_clock (c : κ) (s : σ) :
    ((liftM network.clock : StateT κ (StateM σ) Clock).run c).run s
      = ((network.now s, c), network.looked s) := rfl

theorem run_send (request : Request) (c : κ) (s : σ) :
    ((liftM (network.send request) : StateT κ (StateM σ) (Except HttpFault Response)).run c).run s
      = ((network.answer request s, c), network.sent request s) := rfl

variable {network} {request : Request} {s : σ}

theorem response_eq_some_iff {r : Response} :
    network.response request s = some r ↔ network.answer request s = .ok r := by
  unfold response
  cases network.answer request s with
  | error fault => exact ⟨nofun, nofun⟩
  | ok r' => exact ⟨fun h => congrArg Except.ok (Option.some.inj h),
      fun h => congrArg some (Except.ok.inj h)⟩

theorem response_eq_none_iff :
    network.response request s = none ↔ ∃ fault, network.answer request s = .error fault := by
  unfold response
  cases network.answer request s with
  | error fault => exact ⟨fun _ => ⟨fault, rfl⟩, fun _ => rfl⟩
  | ok r => exact ⟨nofun, nofun⟩

end Network

end Http

open Http

/-- One program after another, when there are two states. -/
theorem run_bind_twoStates {σ κ α β : Type} (x : StateT κ (StateM σ) α)
    (f : α → StateT κ (StateM σ) β) (c : κ) (s : σ) :
    ((x >>= f).run c).run s
      = ((f ((x.run c).run s).1.1).run ((x.run c).run s).1.2).run ((x.run c).run s).2 := rfl

theorem run_get_twoStates {σ κ : Type} (c : κ) (s : σ) :
    ((get : StateT κ (StateM σ) κ).run c).run s = ((c, c), s) := rfl

namespace GitHub

/-! ## One request -/

/-- The ways in which a client performs a request, from its quota and the state of the network to the
answer, with what is written down. -/
inductive Performance {σ : Type} (network : Network (StateM σ)) (request : Except HttpFault Request)
    (c : Client) (log : List Delivery) (s : σ) :
    Except TrackerError Response → Client → List Delivery → σ → Prop where
  /-- The quota forbids it, and nothing is sent. -/
  | blocked {resetIn : Duration} :
      c.quota.refusal? (network.now s) = some resetIn →
      Performance network request c log s (.error (.rateLimitExceeded resetIn)) c log
        (network.looked s)
  /-- There is no such request, and nothing is sent. -/
  | unmade {fault : HttpFault} :
      c.quota.refusal? (network.now s) = none → request = .error fault →
      Performance network request c log s (.error (.http fault)) c log (network.looked s)
  /-- It is sent, and no response comes. -/
  | lost {r : Request} {fault : HttpFault} :
      c.quota.refusal? (network.now s) = none → request = .ok r →
      network.answer r (network.looked s) = .error fault →
      Performance network request c log s (.error (.http fault)) c
        (log ++ [network.delivery r (network.looked s)]) (network.sent r (network.looked s))
  /-- It is sent, and the client takes note of the quota in the response. -/
  | answered {r : Request} {response : Response} {received : Clock} :
      c.quota.refusal? (network.now s) = none → request = .ok r →
      network.answer r (network.looked s) = .ok response →
      network.now (network.sent r (network.looked s)) = received →
      Performance network request c log s (Client.accept response received)
        { c with quota := c.quota.noted response received }
        (log ++ [network.delivery r (network.looked s)])
        (network.looked (network.sent r (network.looked s)))

namespace Client

variable {σ : Type} (network : Network (StateM σ))

theorem run_perform (method : Method) (address : String) (body : Option Json.Value) (c : Client)
    (s : σ) :
    ((perform network method address body).run c).run s
      = match c.quota.refusal? (network.now s) with
        | some resetIn => ((.error (.rateLimitExceeded resetIn), c), network.looked s)
        | none =>
          match c.request method address body with
          | .error fault => ((.error (.http fault), c), network.looked s)
          | .ok r =>
            let s₁ := network.sent r (network.looked s)
            match network.answer r (network.looked s) with
            | .error fault => ((.error (.http fault), c), s₁)
            | .ok response =>
              ((accept response (network.now s₁),
                { c with quota := c.quota.noted response (network.now s₁) }),
                network.looked s₁) := by
  unfold perform
  rw [run_bind_twoStates, run_get_twoStates, run_bind_twoStates, network.run_clock]
  dsimp only
  cases c.quota.refusal? (network.now s) with
  | some resetIn => rfl
  | none =>
    dsimp only
    cases c.request method address body with
    | error fault => rfl
    | ok r =>
      dsimp only
      rw [run_bind_twoStates, network.run_send]
      cases network.answer r (network.looked s) with
      | error fault => rfl
      | ok response => rfl

/-- **There are no other ways to perform a request.** -/
theorem performance_perform (method : Method) (address : String) (body : Option Json.Value)
    (c : Client) (log : List Delivery) (s : σ) :
    let ran := ((perform network.recorded method address body).run c).run (log, s)
    Performance network (c.request method address body) c log s ran.1.1 ran.1.2 ran.2.1
      ran.2.2 := by
  simp only [run_perform, Network.now_recorded, Network.looked_recorded, Network.answer_recorded,
    Network.sent_recorded]
  cases hrefusal : c.quota.refusal? (network.now s) with
  | some resetIn => exact .blocked hrefusal
  | none =>
    dsimp only
    cases hrequest : c.request method address body with
    | error fault => exact .unmade hrefusal rfl
    | ok r =>
      dsimp only
      cases hanswer : network.answer r (network.looked s) with
      | error fault => exact .lost hrefusal rfl hanswer
      | ok response => exact .answered hrefusal rfl hanswer rfl

/-- Writing down what is sent changes nothing else. -/
theorem perform_recorded (method : Method) (address : String)
    (body : Option Json.Value) (c : Client) (log : List Delivery) (s : σ) :
    let ran := ((perform network.recorded method address body).run c).run (log, s)
    (ran.1, ran.2.2) = ((perform network method address body).run c).run s := by
  simp only [run_perform, Network.now_recorded, Network.looked_recorded, Network.answer_recorded,
    Network.sent_recorded]
  cases c.quota.refusal? (network.now s) with
  | some resetIn => rfl
  | none =>
    dsimp only
    cases c.request method address body with
    | error fault => rfl
    | ok r =>
      dsimp only
      cases network.answer r (network.looked s) with
      | error fault => rfl
      | ok response => rfl

/-! ## One call -/

/-- What a client makes of a response to a listing, if it accepts the response. -/
def listed (r : Response) : Except TrackerError (List String) :=
  if r.isSuccess then
    match labelNames? r.body with
    | some names => .ok names
    | none => .error (.http .undecodableBody)
  else .error (apiError r)

/-- What a client makes of a response to adding a label, if it accepts the response. -/
def added (r : Response) : Except TrackerError Unit :=
  if r.isSuccess then .ok () else .error (apiError r)

theorem run_list (pr : Nat) (c : Client) (s : σ) :
    let ran := ((perform network .get (c.labelsUrl pr ++ "?per_page=100")).run c).run s
    ((list network pr).run c).run s = ((ran.1.1 >>= listed, ran.1.2), ran.2) := by
  unfold list
  rw [run_bind_twoStates, run_get_twoStates, run_bind_twoStates]
  dsimp only
  cases (((perform network .get (c.labelsUrl pr ++ "?per_page=100")).run c).run s).1.1 with
  | error e => rfl
  | ok r =>
    show _ = ((listed r, _), _)
    unfold listed
    dsimp only
    cases r.isSuccess with
    | false => rfl
    | true =>
      cases labelNames? r.body with
      | none => rfl
      | some names => rfl

theorem run_add (pr : Nat) (label : String) (c : Client) (s : σ) :
    let ran := ((perform network .post (c.labelsUrl pr)
      (some (.object [("labels", .ofStrings [label])]))).run c).run s
    ((add network pr label).run c).run s = ((ran.1.1 >>= added, ran.1.2), ran.2) := by
  unfold add
  dsimp only
  rw [run_bind_twoStates, run_get_twoStates, run_bind_twoStates]
  dsimp only
  cases (((perform network .post (c.labelsUrl pr)
      (some (.object [("labels", .ofStrings [label])]))).run c).run s).1.1 with
  | error e => rfl
  | ok r =>
    show _ = ((added r, _), _)
    unfold added
    dsimp only
    cases r.isSuccess with
    | false => rfl
    | true => rfl

/-- The request that a call asks for. -/
def requestOf (c : Client) : TrackerCall → Except HttpFault Request
  | .list pr => c.request .get (c.labelsUrl pr ++ "?per_page=100") none
  | .add pr label =>
    c.request .post (c.labelsUrl pr) (some (.object [("labels", .ofStrings [label])]))

end Client

/-! ## Sessions -/

/-- A client with its network as a tracker, so that what is said between the two is written down. Its
state is the client, what has been written down, and the state of the network. -/
def sessionTracker {σ : Type} (network : Network (StateM σ)) :
    Tracker (StateM (Client × List Delivery × σ)) :=
  (Client.tracker network.recorded).joined

/-- A session returns what the program itself returns, and leaves the same client and the same
network. -/
def sessionSimulation {σ : Type} (network : Network (StateM σ)) :
    Simulation (sessionTracker network) (Client.tracker network) where
  Relates x y := ∀ c log s, let ran := x.run (c, log, s)
    ((ran.1, ran.2.1), ran.2.2.2) = (y.run c).run s
  pure _ _ _ _ := rfl
  bind {_ _ x y f g} hx hf c log s := by
    have h := hf (x.run (c, log, s)).1 (x.run (c, log, s)).2.1 (x.run (c, log, s)).2.2.1
      (x.run (c, log, s)).2.2.2
    rw [run_bind_twoStates, ← hx c log s]
    exact h
  list pr c log s := by
    have hrecorded := Client.run_list network.recorded pr c (log, s)
    have hplain := Client.run_list network pr c s
    rw [← Client.perform_recorded network .get _ none c log s] at hplain
    show ((((Client.list network.recorded pr).run c).run (log, s)).1,
        (((Client.list network.recorded pr).run c).run (log, s)).2.2)
      = ((Client.list network pr).run c).run s
    rw [hrecorded, hplain]
  add pr label c log s := by
    have hrecorded := Client.run_add network.recorded pr label c (log, s)
    have hplain := Client.run_add network pr label c s
    rw [← Client.perform_recorded network .post _ _ c log s] at hplain
    show ((((Client.add network.recorded pr label).run c).run (log, s)).1,
        (((Client.add network.recorded pr label).run c).run (log, s)).2.2)
      = ((Client.add network pr label).run c).run s
    rw [hrecorded, hplain]
  pause _ _ _ _ := rfl

end GitHub

/-- What may be asked of a tracker: a call, or that time passes. -/
inductive Wish where
  | call (call : TrackerCall)
  | pause (d : Duration)
  deriving Repr, DecidableEq

namespace Tracker

variable {σ : Type} (tracker : Tracker (StateM σ))

/-- Does what is asked, and says what has been exchanged for it. -/
def grant : Wish → StateM σ Exchange
  | .call (.list pr) => do return .list pr (← tracker.list pr)
  | .call (.add pr label) => do return .add pr label (← tracker.add pr label)
  | .pause d => do
    tracker.pause d
    return .pause d

/-- The state after wishes have been granted, one after the other. -/
def after (wishes : List Wish) (s : σ) : σ := ((wishes.mapM tracker.grant).run s).2

theorem goes_grant (wish : Wish) (s : σ) :
    tracker.Goes s [((tracker.grant wish).run s).1] ((tracker.grant wish).run s).2 := by
  cases wish with
  | call call =>
    cases call with
    | list pr => exact .list rfl .nil
    | add pr label => exact .add rfl .nil
  | pause d => exact .pause rfl .nil

theorem after_cons (wish : Wish) (wishes : List Wish) (s : σ) :
    tracker.after (wish :: wishes) s = tracker.after wishes ((tracker.grant wish).run s).2 := by
  rw [after, List.mapM_cons, StateM.run_bind, StateM.run_bind]
  rfl

theorem goes_after (wishes : List Wish) (s : σ) : ∃ t, tracker.Goes s t (tracker.after wishes s) := by
  induction wishes generalizing s with
  | nil => exact ⟨[], .nil⟩
  | cons wish wishes ih =>
    obtain ⟨t, ht⟩ := ih ((tracker.grant wish).run s).2
    refine ⟨((tracker.grant wish).run s).1 :: t, ?_⟩
    rw [after_cons]
    exact (tracker.goes_grant wish s).append ht

end Tracker

namespace Exchange

/-- The call that an exchange is about; a pause is about none. -/
def call? : Exchange → Option TrackerCall
  | list pr _ => some (.list pr)
  | add pr label _ => some (.add pr label)
  | pause _ => none

theorem call?_grant {σ : Type} (tracker : Tracker (StateM σ)) (call : TrackerCall) (s : σ) :
    ((tracker.grant (.call call)).run s).1.call? = some call := by
  cases call with
  | list pr => rfl
  | add pr label => rfl

/-- The fault with which the call was answered, if it was. -/
def fault? : Exchange → Option TrackerError
  | list _ (.error e) => some e
  | add _ _ (.error e) => some e
  | _ => none

theorem isCall_or_isPause (exchange : Exchange) :
    (∃ call, exchange.call? = some call) ∨ ∃ d, exchange = pause d := by
  cases exchange with
  | list pr answer => exact Or.inl ⟨_, rfl⟩
  | add pr label answer => exact Or.inl ⟨_, rfl⟩
  | pause d => exact Or.inr ⟨d, rfl⟩

end Exchange

namespace GitHub

variable {σ : Type} {network : Network (StateM σ)} {c c' : Client} {log log' : List Delivery}
  {s s' : σ}

/-- A performance whose answer is read, as a call in a session. -/
theorem performance_of_joined {α : Type} {request : Except HttpFault Request}
    {perform : StateT Client (StateM (List Delivery × σ)) (Except TrackerError Response)}
    {call : StateT Client (StateM (List Delivery × σ)) (Except TrackerError α)}
    {read : Response → Except TrackerError α} {result : Except TrackerError α}
    (hperform : let ran := (perform.run c).run (log, s)
      Performance network request c log s ran.1.1 ran.1.2 ran.2.1 ran.2.2)
    (hcall : let ran := (perform.run c).run (log, s)
      (call.run c).run (log, s) = ((ran.1.1 >>= read, ran.1.2), ran.2))
    (hrun : (joined call).run (c, log, s) = (result, c', log', s')) :
    ∃ answer, Performance network request c log s answer c' log' s'
      ∧ ∀ e, answer = .error e → result = .error e := by
  have hjoined : (joined call).run (c, log, s)
      = (((call.run c).run (log, s)).1.1, ((call.run c).run (log, s)).1.2,
        ((call.run c).run (log, s)).2) := rfl
  rw [hjoined, hcall] at hrun
  generalize (perform.run c).run (log, s) = ran at hperform hrun
  obtain ⟨⟨answer, c₁⟩, log₁, s₁⟩ := ran
  cases hrun
  exact ⟨answer, hperform, fun e he => by rw [he]; rfl⟩

/-- **A call of a client performs the request that it asks for**, and a fault of that is its own. -/
theorem performance_of_goes {exchange : Exchange} {call : TrackerCall}
    (hcall : exchange.call? = some call)
    (hgoes : (sessionTracker network).Goes (c, log, s) [exchange] (c', log', s')) :
    ∃ answer, Performance network (c.requestOf call) c log s answer c' log' s'
      ∧ ∀ e, answer = .error e → exchange.fault? = some e := by
  cases hgoes with
  | @list _ _ _ _ pr result hrun hrest =>
    cases hrest
    cases hcall
    obtain ⟨answer, hperformance, hfault⟩ := performance_of_joined
      (Client.performance_perform network .get (c.labelsUrl pr ++ "?per_page=100") none c log s)
      (Client.run_list network.recorded pr c (log, s)) hrun
    exact ⟨answer, hperformance, fun e he => by rw [hfault e he]; rfl⟩
  | @add _ _ _ _ pr label result hrun hrest =>
    cases hrest
    cases hcall
    obtain ⟨answer, hperformance, hfault⟩ := performance_of_joined
      (Client.performance_perform network .post (c.labelsUrl pr)
        (some (.object [("labels", .ofStrings [label])])) c log s)
      (Client.run_add network.recorded pr label c (log, s)) hrun
    exact ⟨answer, hperformance, fun e he => by rw [hfault e he]; rfl⟩
  | pause _ _ => cases hcall

/-- A pause is no more than time that passes. -/
theorem eq_of_goes_pause {d : Duration}
    (hgoes : (sessionTracker network).Goes (c, log, s) [.pause d] (c', log', s')) :
    c' = c ∧ log' = log ∧ s' = network.waited d s := by
  cases hgoes with
  | pause hrun hrest =>
    cases hrest
    cases hrun
    exact ⟨rfl, rfl, rfl⟩

/-- **What every request and every pause keeps to, a session keeps to.** -/
theorem allows_of_goes (E : Evolution (Client × List Delivery × σ))
    (hcall : ∀ {request c log s answer c' log' s'},
      Performance network request c log s answer c' log' s' → E.Allows (c, log, s) (c', log', s'))
    (hpause : ∀ d c log s, E.Allows (c, log, s) (c, log, network.waited d s)) {t : Transcript}
    (hgoes : (sessionTracker network).Goes (c, log, s) t (c', log', s')) :
    E.Allows (c, log, s) (c', log', s') := by
  induction t generalizing c log s with
  | nil =>
    cases hgoes
    exact E.refl _
  | cons exchange t ih =>
    obtain ⟨⟨c₁, log₁, s₁⟩, hfirst, hrest⟩ := Tracker.Goes.split (t := [exchange]) hgoes
    refine E.trans ?_ (ih hrest)
    rcases exchange.isCall_or_isPause with ⟨call, hc⟩ | ⟨d, rfl⟩
    · obtain ⟨answer, hperformance, _⟩ := performance_of_goes hc hfirst
      exact hcall hperformance
    · obtain ⟨rfl, rfl, rfl⟩ := eq_of_goes_pause hfirst
      exact hpause d c₁ log₁ s

end GitHub

end PathLabels
