import PathLabels.Proofs.ExitCode
import PathLabels.Proofs.Labelling

/-!
# Faults come before effects

A labelling that cannot go on should leave the pull request as it was. What keeps it from going on
is looked at in one order: the rule table, the client, the changes. All of that is done before the
first request, so a fault means that nothing was sent; and from the first request on there is no way
left to end with a fault. What the tracker answers, and be it a fault to every call, goes into the
summary.
-/

namespace PathLabels

open GitHub

/-! ## The stages -/

namespace Config

/-- The client settings, if there are any, describe a client. -/
def HasClient (config : Config) : Prop :=
  ∀ target, config.target = some target → ∃ client, Client.ofTarget target = .ok client

/-- There are client settings, and they describe no client. -/
def ClientFault (config : Config) (e : TrackerError) : Prop :=
  ∃ target, config.target = some target ∧ Client.ofTarget target = .error e

section

variable {σ : Type} (host : Host (StateM σ)) (config : Config) (s : σ)

/-- There is a rule table. -/
def HasTable : Prop := ∃ table, (config.load host s).1 = .ok table

/-- What git says about the changes once the file of the rule table has been read. -/
def fetched : Except FetchError ChangeSet :=
  ((config.source host config.pr).run (config.load host s).2).1

/-- The stage at which a run ends follows from the three faults, and the earlier one counts. -/
structure Staged (ran : Except RunError Summary × σ) : Prop where
  config_iff : ∀ e, ran.1 = .error (.config e) ↔ (config.load host s).1 = .error e
  tracker_iff : ∀ e, ran.1 = .error (.tracker e) ↔ config.HasTable host s ∧ config.ClientFault e
  fetch_iff : ∀ e, ran.1 = .error (.fetch e)
    ↔ config.HasTable host s ∧ config.HasClient ∧ config.fetched host s = .error e
  ok_iff : (∃ summary, ran.1 = .ok summary)
    ↔ config.HasTable host s ∧ config.HasClient ∧ ∃ changes, config.fetched host s = .ok changes
  /-- Before the changes are looked for, nothing is done but reading the rule table. -/
  untouched : (∃ e, ran.1 = .error (.config e)) ∨ (∃ e, ran.1 = .error (.tracker e)) →
    ran.2 = (config.load host s).2

end

end Config

section

variable {σ : Type} {host : Host (StateM σ)} {config : Config} {s s' : σ}
  {result : Except RunError Summary}

theorem Config.not_hasTable {e : ConfigError} (h : (config.load host s).1 = .error e) :
    ¬config.HasTable host s := by
  rintro ⟨table, htable⟩
  rw [h] at htable
  cases htable

theorem Config.ClientFault.not_hasClient {e : TrackerError} (h : config.ClientFault e) :
    ¬config.HasClient := by
  obtain ⟨target, htarget, hfault⟩ := h
  intro hclient
  obtain ⟨client, hok⟩ := hclient target htarget
  rw [hfault] at hok
  cases hok

theorem Config.ClientFault.unique {e e' : TrackerError} (h : config.ClientFault e)
    (h' : config.ClientFault e') : e = e' := by
  obtain ⟨target, htarget, hfault⟩ := h
  obtain ⟨target', htarget', hfault'⟩ := h'
  rw [htarget] at htarget'
  cases htarget'
  rw [hfault] at hfault'
  cases hfault'
  rfl

/-! Each way to end is the one that the faults ask for. -/

theorem Config.staged_config {e : ConfigError} (hload : config.load host s = (.error e, s')) :
    config.Staged host s (.error (.config e), s') := by
  have hfault : (config.load host s).1 = .error e := by rw [hload]
  have hnone := not_hasTable hfault
  refine ⟨fun e' => ?_, fun e' => ⟨nofun, fun h => absurd h.1 hnone⟩,
    fun e' => ⟨nofun, fun h => absurd h.1 hnone⟩, ⟨nofun, fun h => absurd h.1 hnone⟩,
    fun _ => by rw [hload]⟩
  rw [hfault]
  constructor
  · intro h; cases h; rfl
  · intro h; cases h; rfl

theorem Config.staged_tracker {table : RuleTable} {e : TrackerError}
    (hload : config.load host s = (.ok table, s')) (hclient : config.ClientFault e) :
    config.Staged host s (.error (.tracker e), s') := by
  have htable : config.HasTable host s := ⟨table, by rw [hload]⟩
  have hnone := hclient.not_hasClient
  refine ⟨fun e' => ⟨nofun, fun h => absurd htable (not_hasTable h)⟩, fun e' => ?_,
    fun e' => ⟨nofun, fun h => absurd h.2.1 hnone⟩, ⟨nofun, fun h => absurd h.2.1 hnone⟩,
    fun _ => by rw [hload]⟩
  constructor
  · intro h; cases h; exact ⟨htable, hclient⟩
  · rintro ⟨-, h⟩; rw [h.unique hclient]

theorem Config.staged_fetch {e : FetchError} (htable : config.HasTable host s)
    (hclient : config.HasClient) (hfetched : config.fetched host s = .error e) :
    config.Staged host s (.error (.fetch e), s') := by
  refine ⟨fun e' => ⟨nofun, fun h => absurd htable (not_hasTable h)⟩,
    fun e' => ⟨nofun, fun h => absurd hclient h.2.not_hasClient⟩, fun e' => ?_,
    ⟨nofun, fun ⟨_, _, changes, h⟩ => ?_⟩, ?_⟩
  · rw [hfetched]
    constructor
    · intro h; cases h; exact ⟨htable, hclient, rfl⟩
    · rintro ⟨-, -, h⟩; cases h; rfl
  · rw [hfetched] at h
    cases h
  · rintro (⟨e', h⟩ | ⟨e', h⟩) <;> cases h

theorem Config.staged_ok {summary : Summary} {changes : ChangeSet}
    (htable : config.HasTable host s) (hclient : config.HasClient)
    (hfetched : config.fetched host s = .ok changes) :
    config.Staged host s (.ok summary, s') where
  config_iff e := ⟨nofun, fun h => absurd htable (not_hasTable h)⟩
  tracker_iff e := ⟨nofun, fun h => absurd hclient h.2.not_hasClient⟩
  fetch_iff e := ⟨nofun, fun h => by rw [hfetched] at h; cases h.2.2⟩
  ok_iff := ⟨fun _ => ⟨htable, hclient, changes, hfetched⟩, fun _ => ⟨summary, rfl⟩⟩
  untouched := by rintro (⟨e, h⟩ | ⟨e, h⟩) <;> cases h

theorem Config.fetched_of_load {table : RuleTable} {s₁ s₂ : σ}
    {changes : Except FetchError ChangeSet} (hload : config.load host s = (.ok table, s₁))
    (hfetch : (config.source host config.pr).run s₁ = (changes, s₂)) :
    config.HasTable host s ∧ config.fetched host s = changes := by
  refine ⟨⟨table, by rw [hload]⟩, ?_⟩
  unfold Config.fetched
  rw [hload, hfetch]

theorem Labelling.staged (h : Labelling host config s result s') :
    config.Staged host s (result, s') := by
  cases h with
  | badTable hload => exact Config.staged_config hload
  | badClient hload htarget hclient => exact Config.staged_tracker hload ⟨_, htarget, hclient⟩
  | badFetch hload hclient hfetch =>
    obtain ⟨htable, hfetched⟩ := Config.fetched_of_load hload hfetch
    exact Config.staged_fetch htable hclient hfetched
  | forecast hload htarget hfetch =>
    obtain ⟨htable, hfetched⟩ := Config.fetched_of_load hload hfetch
    refine Config.staged_ok htable (fun target h => ?_) hfetched
    rw [htarget] at h
    cases h
  | applied hload htarget hclient hfetch _ =>
    obtain ⟨htable, hfetched⟩ := Config.fetched_of_load hload hfetch
    refine Config.staged_ok htable (fun target h => ?_) hfetched
    rw [htarget] at h
    cases h
    exact ⟨_, hclient⟩

end

/-! ## Git, then the network -/

/-- Nothing is recorded but events of one kind. -/
def Evolution.adding (kind : Event → Prop) : Evolution World where
  Allows w w' := ∃ events, w'.events = w.events ++ events ∧ ∀ e ∈ events, kind e
  refl w := ⟨[], (List.append_nil _).symm, List.forall_mem_nil _⟩
  trans := by
    rintro w w₁ w' ⟨events, h, hkind⟩ ⟨events', h', hkind'⟩
    refine ⟨events ++ events', by rw [h', h, List.append_assoc], fun e he => ?_⟩
    exact (List.mem_append.mp he).elim (hkind e) (hkind' e)

namespace World

/-- What git is asked for is recorded as such. -/
theorem adding_runGit (directory : String) (args : List String) :
    (Evolution.adding fun e => e.isRequest = false).Bounds ((host.git directory).run args) := by
  intro w
  show (Evolution.adding _).Allows w (w.runGit directory args).2
  rw [runGit]
  split
  · exact Evolution.refl _ w
  split
  · exact ⟨[], (List.append_nil _).symm, List.forall_mem_nil _⟩
  · exact ⟨[.git args], rfl, fun e he => by rw [List.mem_singleton.mp he]; rfl⟩

/-- So is what is sent. -/
theorem adding_network :
    (Evolution.adding fun e => e.isRequest = true).BoundsNetwork host.network where
  clock w := Evolution.refl _ w
  send request w := ⟨[.request request], rfl, fun e he => by rw [List.mem_singleton.mp he]; rfl⟩
  wait d w := ⟨[], (List.append_nil _).symm, List.forall_mem_nil _⟩

/-- The events of a run: first those of git, then the requests. -/
structure InOrder (w w' : World) (gits requests : List Event) : Prop where
  events : w'.events = w.events ++ (gits ++ requests)
  gits : ∀ e ∈ gits, e.isRequest = false
  requests : ∀ e ∈ requests, e.isRequest = true

theorem InOrder.refl (w : World) : w.InOrder w [] [] :=
  ⟨(List.append_nil _).symm, List.forall_mem_nil _, List.forall_mem_nil _⟩

end World

/-- Reading the rule table leaves a world as it is. -/
theorem World.eq_of_load {config : Config} {w w' : World} {loaded : Except ConfigError RuleTable}
    (h : config.load World.host w = (loaded, w')) : w' = w :=
  (congrArg Prod.snd h).symm

theorem World.inOrder_fetch {config : Config} {w w' : World}
    {fetched : Except FetchError ChangeSet}
    (h : (config.source World.host config.pr).run w = (fetched, w')) :
    ∃ gits, w.InOrder w' gits [] := by
  obtain ⟨gits, hevents, hgits⟩ := Labelling.allows_fetch adding_runGit h
  exact ⟨gits, by rw [hevents, List.append_nil], hgits, List.forall_mem_nil _⟩

/-- Whatever way a labelling goes, nothing is asked of git after a request. -/
theorem Labelling.inOrder {config : Config} {w w' : World} {result : Except RunError Summary}
    (h : Labelling World.host config w result w') :
    ∃ gits requests, w.InOrder w' gits requests
      ∧ ((∃ e, result = .error e) ∨ config.isDryRun = true → requests = [])
      ∧ ((∃ e, result = .error (.config e)) ∨ (∃ e, result = .error (.tracker e)) → gits = []) := by
  cases h with
  | badTable hload =>
    obtain rfl := World.eq_of_load hload
    exact ⟨[], [], .refl _, fun _ => rfl, fun _ => rfl⟩
  | badClient hload =>
    obtain rfl := World.eq_of_load hload
    exact ⟨[], [], .refl _, fun _ => rfl, fun _ => rfl⟩
  | badFetch hload _ hfetch =>
    obtain rfl := World.eq_of_load hload
    obtain ⟨gits, hgits⟩ := World.inOrder_fetch hfetch
    exact ⟨gits, [], hgits, fun _ => rfl, by rintro (⟨e, h⟩ | ⟨e, h⟩) <;> cases h⟩
  | forecast hload _ hfetch =>
    obtain rfl := World.eq_of_load hload
    obtain ⟨gits, hgits⟩ := World.inOrder_fetch hfetch
    exact ⟨gits, [], hgits, fun _ => rfl, by rintro (⟨e, h⟩ | ⟨e, h⟩) <;> cases h⟩
  | applied hload htarget _ hfetch happly =>
    obtain rfl := World.eq_of_load hload
    obtain ⟨gits, hgits⟩ := World.inOrder_fetch hfetch
    obtain ⟨requests, hevents, hrequests⟩ := allows_applied World.adding_network happly
    refine ⟨gits, requests, ⟨?_, hgits.gits, hrequests⟩, ?_, ?_⟩
    · rw [hevents, hgits.events, List.append_nil, List.append_assoc]
    · rintro (⟨e, h⟩ | h)
      · cases h
      · rw [Config.isDryRun, htarget] at h
        cases h
    · rintro (⟨e, h⟩ | ⟨e, h⟩) <;> cases h

/--
**Faults come before effects.**

The first part is about every host. A run ends with the fault of the rule table if that has one,
else with that of the client, else with that of the changes; if there is none, it ends with a
summary, whatever the tracker answers. A fault of the table or of the client leaves the state as it
was when the table had been read. The second part is about files, git and network in memory: what
happens is first a number of runs of git and then a number of requests; there are no requests in a
run that ends with a fault or that is not to apply anything, and git does not run before a fault of
the table or of the client.
-/
theorem faults_precede_effects (config : Config) :
    (∀ {σ : Type} (host : Host (StateM σ)) (s : σ),
      config.Staged host s ((config.label host).run s))
    ∧ ∀ w : World,
        let ran := (config.label World.host).run w
        ∃ gits requests, w.InOrder ran.2 gits requests
          ∧ ((∃ e, ran.1 = .error e) ∨ config.isDryRun = true → requests = [])
          ∧ ((∃ e, ran.1 = .error (.config e)) ∨ (∃ e, ran.1 = .error (.tracker e)) →
              gits = [] ∧ ran.2 = w) := by
  refine ⟨fun host s => (config.labelling host s).staged, fun w => ?_⟩
  intro ran
  have hlabelling := config.labelling World.host w
  obtain ⟨gits, requests, horder, hrequests, hgits⟩ := hlabelling.inOrder
  exact ⟨gits, requests, horder, hrequests, fun h => ⟨hgits h, hlabelling.staged.untouched h⟩⟩

/-- A configuration for the checkout of `Cli.oneRule`. -/
def Config.withToken (token : String) : Config where
  pr := 12
  rulesPath := defaultRulesPath
  repoDir := defaultRepoDir
  baseRef := defaultBaseRef
  headRef := defaultHeadRef
  target := some { token, repository := ⟨"o", "r"⟩, apiUrl := "http://h" }

/-- A git that resolves no base. -/
def GitScript.noBase : GitScript where
  baseCommit := { output := { success := false } }

theorem exists_eq_ok {ε α : Type} {x : Except ε α} (h : x.toOption.isSome = true) :
    ∃ a, x = .ok a := by
  obtain ⟨a, ha⟩ := Option.isSome_iff_exists.mp h
  exact ⟨a, Cli.eq_ok_of_toOption ha⟩

/-- A blank token is a fault before a git that resolves no base, and git does not run. A server that
answers nothing is asked twice for the labels and twice to add one, and there is a summary. -/
theorem faults_precede_effects_unanswered :
    let w := Cli.oneRule [] []
    let noBase : World := { w with git := .noBase }
    let blank := ((Config.withToken " ").label World.host).run noBase
    let unanswered := ((Config.withToken "tok").label World.host).run w
    blank.1 = .error (.tracker (.authenticationFailed "empty API token")) ∧ blank.2 = noBase
      ∧ (∃ summary, unanswered.1 = .ok summary) ∧ unanswered.2.requests.length = 4
      ∧ ∃ gits requests, w.InOrder unanswered.2 gits requests := by
  intro w noBase blank unanswered
  obtain ⟨hblank, hempty⟩ := faults_precede_effects (Config.withToken " ")
  obtain ⟨htok, horder⟩ := faults_precede_effects (Config.withToken "tok")
  have htable : ((Config.withToken " ").load World.host noBase).1.toOption.isSome = true := by
    decide +kernel
  have hfault : blank.1 = .error (.tracker (.authenticationFailed "empty API token")) :=
    ((hblank World.host noBase).tracker_iff _).mpr ⟨exists_eq_ok htable, _, rfl, rfl⟩
  obtain ⟨_, _, _, _, huntouched⟩ := hempty noBase
  have hchanges : ((Config.withToken "tok").fetched World.host w).toOption.isSome = true := by
    decide +kernel
  have hclient : (Config.withToken "tok").HasClient := fun target h => by cases h; exact ⟨_, rfl⟩
  have hsummary : ∃ summary, unanswered.1 = .ok summary :=
    (htok World.host w).ok_iff.mpr ⟨exists_eq_ok htable, hclient, exists_eq_ok hchanges⟩
  obtain ⟨gits, requests, hinOrder, _⟩ := horder w
  exact ⟨hfault, (huntouched (Or.inr ⟨_, hfault⟩)).2, hsummary, by decide +kernel,
    gits, requests, hinOrder⟩

end PathLabels
