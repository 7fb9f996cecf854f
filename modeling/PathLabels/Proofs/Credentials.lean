import PathLabels.Proofs.Checkout
import PathLabels.Proofs.Deliveries
import PathLabels.Proofs.StageOrder

/-!
# The token stays in its header

A token is looked at twice before a run, whether it is there and whether a header can hold it. Past
that it goes into the header of each request, and nowhere else. So two runs that differ in their
tokens are one run: they return the same, and the worlds that they leave are the same but for that
header. No answer of the tracker can bring the token to light either, since what a client says about
a request is about its address.
-/

namespace PathLabels

open Http GitHub

/-! ## Tokens and what bears them -/

/-- A token that can be used: it is not blank, and a header can hold it. -/
structure IsUsable (token : String) : Prop where
  notBlank : Text.allBlank token = false
  isHeaderText : isHeaderText token = true

instance (token : String) : Decidable (IsUsable token) :=
  decidable_of_iff (Text.allBlank token = false ∧ isHeaderText token = true)
    ⟨fun h => ⟨h.1, h.2⟩, fun h => ⟨h.notBlank, h.isHeaderText⟩⟩

/-- The request with a token. -/
def Http.Request.bearing (token : String) (r : Request) : Request :=
  { r with authorization := "Bearer " ++ token }

/-- The event with a token, if it is a request. -/
def Event.bearing (token : String) : Event → Event
  | git args => git args
  | request r => request (r.bearing token)

/-- The client with another token. -/
def GitHub.Client.bearing (token : String) (c : Client) : Client := { c with token }

/-- The target with another token. -/
def Target.bearing (token : String) (target : Target) : Target := { target with token }

/-- The configuration with another token, if it has a target. -/
def Config.bearing (token : String) (config : Config) : Config :=
  { config with target := config.target.map (Target.bearing token) }

/-- Two lists have grown from one by the same, but for the token that it bears. -/
def GrownAlike {α : Type} (bear : String → α → α) (token token' : String)
    (start grown grown' : List α) : Prop :=
  ∃ new : List α, grown = start ++ new.map (bear token) ∧ grown' = start ++ new.map (bear token')

namespace GrownAlike

variable {α : Type} {bear : String → α → α} {token token' : String} {start grown grown' : List α}

theorem refl : GrownAlike bear token token' start start start :=
  ⟨[], (List.append_nil _).symm, (List.append_nil _).symm⟩

theorem concat (h : GrownAlike bear token token' start grown grown') (a : α) :
    GrownAlike bear token token' start (grown ++ [bear token a]) (grown' ++ [bear token' a]) := by
  obtain ⟨new, rfl, rfl⟩ := h
  refine ⟨new ++ [a], ?_, ?_⟩
  · rw [List.map_append, List.append_assoc]
    rfl
  · rw [List.map_append, List.append_assoc]
    rfl

end GrownAlike

namespace World

/-- The world with nothing written down about git and requests. -/
def withoutTraffic (w : World) : World :=
  { w with events := [], network := { w.network with requests := [] } }

/-- Two worlds come from one by the same, but for the tokens that requests bear. -/
structure SameButToken (w : World) (token token' : String) (w₁ w₂ : World) : Prop where
  /-- Git has been run and requests have been sent in the same order. -/
  events : GrownAlike Event.bearing token token' w.events w₁.events w₂.events
  /-- The same requests have been received. -/
  received : GrownAlike Request.bearing token token' w.network.requests w₁.network.requests
    w₂.network.requests
  /-- Nothing else is different. -/
  rest : w₁.withoutTraffic = w₂.withoutTraffic

namespace SameButToken

variable {w w₁ w₂ : World} {token token' : String}

theorem refl (w : World) (token token' : String) : w.SameButToken token token' w w :=
  ⟨.refl, .refl, rfl⟩

theorem checkout (h : w.SameButToken token token' w₁ w₂) :
    w₁.tree = w₂.tree ∧ w₁.workDir = w₂.workDir ∧ w₁.git = w₂.git := by
  show w₁.withoutTraffic.tree = w₂.withoutTraffic.tree
    ∧ w₁.withoutTraffic.workDir = w₂.withoutTraffic.workDir
    ∧ w₁.withoutTraffic.git = w₂.withoutTraffic.git
  rw [h.rest]
  exact ⟨rfl, rfl, rfl⟩

/-- Two networks show the same, whatever they have received. -/
theorem network (h : w.SameButToken token token' w₁ w₂) :
    w₁.network.replies = w₂.network.replies ∧ w₁.network.clock = w₂.network.clock
      ∧ w₁.network.isReachable = w₂.network.isReachable
      ∧ w₁.network.redirects = w₂.network.redirects := by
  show w₁.withoutTraffic.network.replies = w₂.withoutTraffic.network.replies
    ∧ w₁.withoutTraffic.network.clock = w₂.withoutTraffic.network.clock
    ∧ w₁.withoutTraffic.network.isReachable = w₂.withoutTraffic.network.isReachable
    ∧ w₁.withoutTraffic.network.redirects = w₂.withoutTraffic.network.redirects
  rw [h.rest]
  exact ⟨rfl, rfl, rfl, rfl⟩

/-- What does not touch the traffic keeps two worlds the same. -/
theorem map (h : w.SameButToken token token' w₁ w₂) {f : World → World}
    (hevents : ∀ u, (f u).events = u.events)
    (hreceived : ∀ u, (f u).network.requests = u.network.requests)
    (hrest : ∀ u, (f u).withoutTraffic = f u.withoutTraffic) :
    w.SameButToken token token' (f w₁) (f w₂) where
  events := by rw [hevents, hevents]; exact h.events
  received := by rw [hreceived, hreceived]; exact h.received
  rest := by rw [hrest, hrest, h.rest]

theorem withReceived (h : w.SameButToken token token' w₁ w₂) (r : Request) :
    w.SameButToken token token'
      { w₁ with network :=
        { w₁.network with requests := w₁.network.requests ++ [r.bearing token] } }
      { w₂ with network :=
        { w₂.network with requests := w₂.network.requests ++ [r.bearing token'] } } :=
  ⟨h.events, h.received.concat r, h.rest⟩

theorem withEvent (h : w.SameButToken token token' w₁ w₂) (event : Event) :
    w.SameButToken token token' { w₁ with events := w₁.events ++ [event.bearing token] }
      { w₂ with events := w₂.events ++ [event.bearing token'] } :=
  ⟨h.events.concat event, h.received, h.rest⟩

theorem alike_readFile (path : String) :
    Alike (w.SameButToken token token') (host.readFile path) (host.readFile path) := by
  intro w₁ w₂ h
  obtain ⟨htree, hplace, -⟩ := h.checkout
  refine ⟨?_, h⟩
  show w₁.tree.read w₁.workDir path = w₂.tree.read w₂.workDir path
  rw [htree, hplace]

theorem alike_runGit (directory : String) (args : List String) :
    Alike (w.SameButToken token token') ((host.git directory).run args)
      ((host.git directory).run args) := by
  intro w₁ w₂ h
  obtain ⟨htree, hplace, hgit⟩ := h.checkout
  have hdirectory : w₁.tree.resolveDirectory w₁.workDir directory
      = w₂.tree.resolveDirectory w₂.workDir directory := by rw [htree, hplace]
  have hanswer : w₁.git.run args = w₂.git.run args := by rw [hgit]
  show (w₁.runGit directory args).1 = (w₂.runGit directory args).1
    ∧ w.SameButToken token token' (w₁.runGit directory args).2 (w₂.runGit directory args).2
  rw [runGit, runGit, hdirectory, hanswer]
  cases w₂.tree.resolveDirectory w₂.workDir directory with
  | error e => exact ⟨rfl, h⟩
  | ok place =>
    obtain ⟨answer, git⟩ := w₂.git.run args
    have hgit : w.SameButToken token token' { w₁ with git } { w₂ with git } :=
      h.map (f := fun u => { u with git }) (fun _ => rfl) (fun _ => rfl) fun _ => rfl
    rcases answer with _ | output
    · exact ⟨rfl, hgit⟩
    · exact ⟨rfl, hgit.withEvent (.git args)⟩

theorem alike_clock :
    Alike (w.SameButToken token token') networkOf.clock networkOf.clock :=
  fun _ _ h => ⟨h.network.2.1, h⟩

theorem alike_wait (d : Duration) :
    Alike (w.SameButToken token token') (networkOf.wait d) (networkOf.wait d) :=
  fun _ _ h => ⟨rfl, h.map (f := fun u => ((networkOf.wait d).run u).2) (fun _ => rfl)
    (fun _ => rfl) fun _ => rfl⟩

/-- The world after the next reply, whatever it replies to. -/
def afterReply (u : World) : World :=
  { u with network := { u.network with
    replies := u.network.replies.tail
    clock := u.network.clock.advance (u.network.replies.headD { response := none }).delay } }

/-- **The network does not look at the token.** -/
theorem alike_send (r : Request) :
    Alike (w.SameButToken token token') (networkOf.send (r.bearing token))
      (networkOf.send (r.bearing token')) := by
  intro w₁ w₂ h
  obtain ⟨hreplies, hclock, hreachable, hredirects⟩ := h.network
  show (w₁.send (r.bearing token)).1 = (w₂.send (r.bearing token')).1
    ∧ w.SameButToken token token' (w₁.send (r.bearing token)).2 (w₂.send (r.bearing token')).2
  have hsent := h.withEvent (.request r)
  unfold World.send NetworkScript.send
  by_cases hreach : w₂.network.isReachable = true
  · have hreplied := hsent.map (f := afterReply) (fun _ => rfl) (fun _ => rfl) fun _ => rfl
    rw [if_pos (hreachable.trans hreach), if_pos hreach]
    refine ⟨?_, hreplied.withReceived r⟩
    have hfault : w₁.network.fault (r.bearing token) = w₂.network.fault (r.bearing token') := by
      rw [NetworkScript.fault, NetworkScript.fault, hredirects]
      rfl
    dsimp only
    rw [hreplies, hfault]
  · rw [if_neg (hreachable ▸ hreach), if_neg hreach]
    exact ⟨rfl, hsent⟩

end SameButToken

end World

/-! ## Clients -/

namespace GitHub.Client

open World

/-- Two clients, each with its world, are the same but for the token. -/
structure SameButToken (w : World) (token token' : String) (x y : Client × World) : Prop where
  client : ∃ c : Client, x.1 = c.bearing token ∧ y.1 = c.bearing token'
  world : w.SameButToken token token' x.2 y.2

variable {w : World} {token token' : String}

theorem authorization_isHeaderText (c : Client) (h : isHeaderText token = true) :
    isHeaderText (c.bearing token).authorization = true := by
  have htext : (c.bearing token).authorization = "Bearer " ++ token := rfl
  rw [htext, isHeaderText, String.toList_append, List.all_append, Bool.and_eq_true]
  exact ⟨by decide, h⟩

/-- **A request can be made with either token or with neither**, and it is the same but for the
token. -/
theorem request_bearing (h : isHeaderText token = true) (h' : isHeaderText token' = true)
    (c : Client) (method : Method) (address : String) (body : Option Json.Value) :
    (∃ fault, (c.bearing token).request method address body = .error fault
        ∧ (c.bearing token').request method address body = .error fault)
      ∨ ∃ r : Request, (c.bearing token).request method address body = .ok (r.bearing token)
        ∧ (c.bearing token').request method address body = .ok (r.bearing token') := by
  unfold request
  rw [c.authorization_isHeaderText h, c.authorization_isHeaderText h']
  cases Url.ofText? address with
  | none => exact Or.inl ⟨_, rfl, rfl⟩
  | some url =>
    dsimp only
    split
    · exact Or.inl ⟨_, rfl, rfl⟩
    split
    · exact Or.inl ⟨_, rfl, rfl⟩
    split
    · exact Or.inl ⟨_, rfl, rfl⟩
    · let r : Request := {
        method, url
        authorization := c.authorization
        accept := "application/vnd.github+json"
        apiVersion := "2022-11-28"
        userAgent
        contentType := body.map fun _ => "application/json"
        body := body.map Json.Value.compact }
      exact Or.inr ⟨r, rfl, rfl⟩

theorem run_joined {α : Type} (x : StateT Client (StateM World) α) (c : Client) (u : World) :
    (joined x).run (c, u)
      = (((x.run c).run u).1.1, ((x.run c).run u).1.2, ((x.run c).run u).2) := rfl

variable (h : isHeaderText token = true) (h' : isHeaderText token' = true)
include h h'

/-- **What a client does with a request is the same with either token.** -/
theorem alike_perform (method : Method) (address : String) (body : Option Json.Value) :
    Alike (SameButToken w token token') (joined (perform networkOf method address body))
      (joined (perform networkOf method address body)) := by
  rintro ⟨_, w₁⟩ ⟨_, w₂⟩ ⟨⟨c, rfl, rfl⟩, hworld⟩
  have hnow : networkOf.now w₁ = networkOf.now w₂ :=
    (World.SameButToken.alike_clock w₁ w₂ hworld).1
  have hlooked : w.SameButToken token token' (networkOf.looked w₁) (networkOf.looked w₂) :=
    (World.SameButToken.alike_clock w₁ w₂ hworld).2
  have hquota (token : String) : (c.bearing token).quota = c.quota := rfl
  rw [run_joined, run_joined, run_perform, run_perform, hquota, hquota, hnow]
  cases c.quota.refusal? (networkOf.now w₂) with
  | some resetIn => exact ⟨rfl, ⟨c, rfl, rfl⟩, hlooked⟩
  | none =>
    dsimp only
    rcases c.request_bearing h h' method address body with ⟨fault, hr, hr'⟩ | ⟨r, hr, hr'⟩
    · rw [hr, hr']
      exact ⟨rfl, ⟨c, rfl, rfl⟩, hlooked⟩
    · have hanswer : networkOf.answer (r.bearing token) (networkOf.looked w₁)
          = networkOf.answer (r.bearing token') (networkOf.looked w₂) :=
        (World.SameButToken.alike_send r _ _ hlooked).1
      have hsent : w.SameButToken token token'
          (networkOf.sent (r.bearing token) (networkOf.looked w₁))
          (networkOf.sent (r.bearing token') (networkOf.looked w₂)) :=
        (World.SameButToken.alike_send r _ _ hlooked).2
      obtain ⟨hclock, hend⟩ := World.SameButToken.alike_clock _ _ hsent
      rw [hr, hr']
      dsimp only
      rw [hanswer]
      cases networkOf.answer (r.bearing token') (networkOf.looked w₂) with
      | error fault => exact ⟨rfl, ⟨c, rfl, rfl⟩, hsent⟩
      | ok response =>
        have hreceived : networkOf.now (networkOf.sent (r.bearing token) (networkOf.looked w₁))
            = networkOf.now (networkOf.sent (r.bearing token') (networkOf.looked w₂)) := hclock
        dsimp only
        rw [hreceived]
        exact ⟨rfl, ⟨{ c with quota := _ }, rfl, rfl⟩, hend⟩

/-- A call asks for the same with either token, and reads the same from the response. -/
theorem alike_call {α : Type} {call : StateT Client (StateM World) (Except TrackerError α)}
    {method : Method} {body : Option Json.Value} (address : Client → String)
    {read : Response → Except TrackerError α}
    (haddress : ∀ (token : String) c, address (bearing token c) = address c)
    (hcall : ∀ c u, let ran := ((perform networkOf method (address c) body).run c).run u
      (call.run c).run u = ((ran.1.1 >>= read, ran.1.2), ran.2)) :
    Alike (SameButToken w token token') (joined call) (joined call) := by
  rintro ⟨_, w₁⟩ ⟨_, w₂⟩ ⟨⟨c, rfl, rfl⟩, hworld⟩
  obtain ⟨hvalue, hstate⟩ := alike_perform h h' method (address c) body
    (c.bearing token, w₁) (c.bearing token', w₂) ⟨⟨c, rfl, rfl⟩, hworld⟩
  rw [run_joined, run_joined] at hvalue hstate
  rw [run_joined, run_joined, hcall, hcall, haddress, haddress]
  exact ⟨congrArg (· >>= read) hvalue, hstate⟩

/-- A client is the same tracker with either token. -/
def sameButToken (w : World) :
    Simulation (tracker networkOf).joined (tracker networkOf).joined where
  Relates x y := Alike (SameButToken w token token') x y
  pure := Alike.pure
  bind := Alike.bind
  list pr := alike_call h h' (fun c => c.labelsUrl pr ++ "?per_page=100")
    (fun _ _ => rfl) (run_list networkOf pr)
  add pr label := alike_call h h' (fun c => c.labelsUrl pr)
    (fun _ _ => rfl) (run_add networkOf pr label)
  pause d := by
    rintro ⟨_, w₁⟩ ⟨_, w₂⟩ ⟨hclient, hworld⟩
    exact ⟨rfl, hclient, (World.SameButToken.alike_wait d w₁ w₂ hworld).2⟩

end GitHub.Client

/-! ## Runs -/

namespace Config

open World

variable {w : World} {token token' : String} (config : Config)

theorem alike_fetch : Alike (w.SameButToken token token') (config.source World.host config.pr)
    (config.source World.host config.pr) :=
  Alike.changes (SameButToken.alike_runGit config.repoDir) config.baseRef config.headRef

theorem alike_dryRun (table : RuleTable) : Alike (w.SameButToken token token')
    (config.dryRun World.host table) (config.dryRun World.host table) := by
  rw [dryRun, Pipeline.run_of_isSilent (Pipeline.isSilent_ofTable _ _)]
  refine .bind (.bind config.alike_fetch fun fetched => ?_) fun _ => .pure _
  cases fetched with
  | error e => exact .pure _
  | ok changes => exact .pure _

variable (h : IsUsable token) (h' : IsUsable token')
include h h'

/-- A decision is applied in the same way with either token. -/
theorem alike_clientRun (table : RuleTable) (c : Client) : Alike (w.SameButToken token token')
    (config.clientRun World.host table (c.bearing token))
    (config.clientRun World.host table (c.bearing token')) := by
  intro w₁ w₂ hworld
  obtain ⟨hfetched, hstate⟩ := config.alike_fetch w₁ w₂ hworld
  rw [run_clientRun, run_clientRun]
  generalize (config.source World.host config.pr).run w₁ = ran at hfetched hstate ⊢
  generalize (config.source World.host config.pr).run w₂ = ran' at hfetched hstate ⊢
  obtain ⟨fetched, u₁⟩ := ran
  obtain ⟨fetched', u₂⟩ := ran'
  obtain rfl : fetched = fetched' := hfetched
  cases fetched with
  | error e => exact ⟨rfl, hstate⟩
  | ok changes =>
    have happly := (Client.sameButToken h.isHeaderText h'.isHeaderText w).relates_apply
      table.applier config.pr (config.forecast World.host table changes).decision table
      (c.bearing token, u₁) (c.bearing token', u₂) ⟨⟨c, rfl, rfl⟩, hstate⟩
    rw [Applier.run_joined, Applier.run_joined] at happly
    obtain ⟨hreport, -, hend⟩ := happly
    let ended (report : Report) : Except FetchError Summary :=
      .ok { config.forecast World.host table changes with report := some report }
    exact ⟨congrArg ended hreport, hend⟩

theorem exists_client (target : Target) : ∃ c : Client,
    Client.ofTarget (target.bearing token) = .ok (c.bearing token)
      ∧ Client.ofTarget (target.bearing token') = .ok (c.bearing token') := by
  let c : Client := {
    baseUrl := String.ofList (target.apiUrl.toList.reverse.dropWhile (· == '/')).reverse
    token := target.token, repository := target.repository }
  have hmade {token : String} (h : IsUsable token) :
      Client.ofTarget (target.bearing token) = .ok (c.bearing token) := by
    have hblank : ¬Text.allBlank (target.bearing token).token = true := by
      show ¬Text.allBlank token = true
      rw [h.notBlank]
      exact Bool.false_ne_true
    rw [Client.ofTarget, if_neg hblank]
    rfl
  exact ⟨c, hmade h, hmade h'⟩

theorem alike_runWith (table : RuleTable) : Alike (w.SameButToken token token')
    ((config.bearing token).runWith World.host table)
    ((config.bearing token').runWith World.host table) := by
  have htarget (token : String) :
      (config.bearing token).target = config.target.map (Target.bearing token) := rfl
  unfold runWith
  rw [htarget, htarget]
  cases config.target with
  | none => exact .bind (config.alike_dryRun table) fun _ => .pure _
  | some target =>
    obtain ⟨c, hc, hc'⟩ := exists_client h h' target
    dsimp only [Option.map_some]
    rw [hc, hc']
    exact .bind (config.alike_clientRun h h' table c) fun _ => .pure _

/-- **Two runs with two tokens are one.** -/
theorem alike_label : Alike (w.SameButToken token token')
    ((config.bearing token).label World.host) ((config.bearing token').label World.host) := by
  refine .bind (SameButToken.alike_readFile config.rulesPath) fun contents => ?_
  have hpath (token : String) : (config.bearing token).rulesPath = config.rulesPath := rfl
  rw [hpath, hpath]
  cases RuleTable.ofFile config.rulesPath contents with
  | error e => exact .pure _
  | ok table => exact config.alike_runWith h h' table

omit h h' in
/-- The text for logs shows that there is a token, not which. -/
theorem logText_bearing (quotedPath : String → String) (token : String) :
    (config.bearing token).logText quotedPath = config.logText quotedPath := by
  have htarget : (config.bearing token).target = config.target.map (Target.bearing token) := rfl
  unfold logText
  rw [htarget]
  cases config.target with
  | none => rfl
  | some target => rfl

example : (withToken "tok").logText Text.quoted = "RunConfig \x7b pr_number: 12, "
    ++ "rules_path: \"autolabel.toml\", repo_dir: \".\", base_ref: \"origin/master\", "
    ++ "head_ref: \"HEAD\", github: Some(GitHubSettings \x7b token: \"[REDACTED]\", "
    ++ "repository: Repository \x7b owner: \"o\", name: \"r\" \x7d, "
    ++ "api_url: \"http://h\" \x7d) \x7d" := by
  decide +kernel

omit h h' in
theorem targetOf_bearing (h : IsUsable token) (inputs : RunInputs) :
    targetOf { inputs with token := some token }
      = (require .repository inputs.repository >>= Repository.parse).map fun repository =>
          { token, repository, apiUrl := inputs.apiUrl.getD defaultApiUrl } := by
  have hkept : (some token).filter (fun t => !Text.allBlank t) = some token := by
    rw [Option.filter_some, h.notBlank]
    rfl
  unfold targetOf
  dsimp only
  rw [hkept]
  cases require .repository inputs.repository with
  | error e => rfl
  | ok text =>
    cases hparse : Repository.parse text with
    | error e => simp only [bind, Except.bind, hparse]; rfl
    | ok repository => simp only [bind, Except.bind, hparse]; rfl

/-- Inputs with either token make the same configuration, or the same fault. -/
theorem ofInputs_bearing (inputs : RunInputs) :
    ofInputs { inputs with token := some token' }
      = (ofInputs { inputs with token := some token }).map (bearing token') := by
  unfold ofInputs
  rw [targetOf_bearing h inputs, targetOf_bearing h' inputs]
  dsimp only
  cases require .pullRequest inputs.pr with
  | error e => rfl
  | ok pr =>
    cases inputs.dryRun with
    | true => rfl
    | false =>
      cases require .repository inputs.repository >>= Repository.parse with
      | error e => rfl
      | ok repository => rfl

/--
**A run shows no more of its token than that there is one.**

Let a configuration be given two tokens, each of which can be used, and let the pull request be
labelled with the one and with the other from the same world. The result is the same, a summary or a
fault. Git is run and requests are sent in the same order, and each request is the same but for the
header that bears the token. Nothing else is different in the worlds that are left. Before the run,
either token makes the same configuration of any inputs, or the same fault, and the text of a
configuration for logs is the same whatever its token is.
-/
theorem label_hides_token (w : World) :
    let ran := ((config.bearing token).label World.host).run w
    let ran' := ((config.bearing token').label World.host).run w
    ran.1 = ran'.1 ∧ w.SameButToken token token' ran.2 ran'.2
      ∧ (∀ quotedPath,
          (config.bearing token).logText quotedPath = (config.bearing token').logText quotedPath)
      ∧ ∀ inputs : RunInputs, ofInputs { inputs with token := some token' }
          = (ofInputs { inputs with token := some token }).map (bearing token') := by
  intro ran ran'
  obtain ⟨hresult, hworld⟩ := config.alike_label h h' w w (.refl w token token')
  refine ⟨hresult, hworld, fun quotedPath => ?_, ofInputs_bearing h h'⟩
  rw [logText_bearing, logText_bearing]

omit h h' in
/-- The tracker refuses both tokens when a label is added, and each has been sent twice. -/
theorem label_hides_token_refused :
    let config := withToken ""
    let w := Cli.oneRule [] [{ body := Text.bytes "[]" }, { status := 401 }]
    let ran := ((config.bearing "first").label World.host).run w
    let ran' := ((config.bearing "second").label World.host).run w
    let sent (u : World) := u.network.requests.map Http.Request.authorization
    ran.1 = ran'.1 ∧ w.SameButToken "first" "second" ran.2 ran'.2
      ∧ sent ran.2 = ["Bearer first", "Bearer first"]
      ∧ sent ran'.2 = ["Bearer second", "Bearer second"] := by
  intro config w ran ran' sent
  have h : IsUsable "first" := by decide
  have h' : IsUsable "second" := by decide
  obtain ⟨hresult, hworld, -⟩ := label_hides_token config h h' w
  exact ⟨hresult, hworld, by decide +kernel, by decide +kernel⟩

end Config

end PathLabels
