import PathLabels.Labeling
import PathLabels.Proofs.Evolution
import PathLabels.Proofs.Turns

/-!
# How labelling a pull request goes

Labelling ends in one of five ways. Which one it is depends on the rule table, then on the client,
then on git, and only then on the tracker; and each way says what has been done by then. `Labelling`
lists them, with the state between two stages, and `Config.labelling` says that there are no others.
What is said about labelling is said by going through this list.
-/

namespace PathLabels

open GitHub

/-- The applier with which labelling follows a table. -/
def RuleTable.applier (table : RuleTable) : Applier :=
  { skipIfLabeled := table.settings.skipIfLabeled }

namespace Config

variable {σ : Type} (host : Host (StateM σ)) (config : Config)

/-- The rule table, and the state once its file has been read. -/
def load (s : σ) : Except ConfigError RuleTable × σ :=
  let (contents, s₁) := (host.readFile config.rulesPath).run s
  (RuleTable.ofFile config.rulesPath contents, s₁)

/-- What is known once the changes are: the decision, and what it rests on. -/
def forecast (table : RuleTable) (changes : ChangeSet) : Summary :=
  (Pipeline.ofTable (config.source host) table).forecast config.pr changes

/-- Applies the decision for a change set over a client. -/
def applied (table : RuleTable) (changes : ChangeSet) :
    StateT Client (StateM σ) Report :=
  table.applier.apply (Client.tracker host.network) config.pr
    (config.forecast host table changes).decision table

end Config

/-- The ways in which labelling goes, from a state to a result and the state in which it ends. -/
inductive Labelling {σ : Type} (host : Host (StateM σ)) (config : Config) (s : σ) :
    Except RunError Summary → σ → Prop where
  /-- There is no rule table. -/
  | badTable {e : ConfigError} {s₁ : σ} :
      config.load host s = (.error e, s₁) →
      Labelling host config s (.error (.config e)) s₁
  /-- No client can be made. -/
  | badClient {table : RuleTable} {s₁ : σ} {target : Target} {e : TrackerError} :
      config.load host s = (.ok table, s₁) → config.target = some target →
      Client.ofTarget target = .error e →
      Labelling host config s (.error (.tracker e)) s₁
  /-- The changes are not known. -/
  | badFetch {table : RuleTable} {s₁ s₂ : σ} {e : FetchError} :
      config.load host s = (.ok table, s₁) →
      (∀ target, config.target = some target → ∃ client, Client.ofTarget target = .ok client) →
      (config.source host config.pr).run s₁ = (.error e, s₂) →
      Labelling host config s (.error (.fetch e)) s₂
  /-- Nothing is to be applied. -/
  | forecast {table : RuleTable} {s₁ s₂ : σ} {changes : ChangeSet} :
      config.load host s = (.ok table, s₁) → config.target = none →
      (config.source host config.pr).run s₁ = (.ok changes, s₂) →
      Labelling host config s (.ok (config.forecast host table changes)) s₂
  /-- The decision has been applied. -/
  | applied {table : RuleTable} {s₁ s₂ s₃ : σ} {target : Target} {client client' : Client}
      {changes : ChangeSet} {report : Report} :
      config.load host s = (.ok table, s₁) → config.target = some target →
      Client.ofTarget target = .ok client →
      (config.source host config.pr).run s₁ = (.ok changes, s₂) →
      ((config.applied host table changes).run client).run s₂ = ((report, client'), s₃) →
      Labelling host config s
        (.ok { config.forecast host table changes with report := some report }) s₃

namespace Config

variable {σ : Type} (host : Host (StateM σ)) (config : Config)

theorem run_dryRun (table : RuleTable) (s : σ) :
    (config.dryRun host table).run s
      = match (config.source host config.pr).run s with
        | (.error e, s₁) => (.error e, s₁)
        | (.ok changes, s₁) => (.ok (config.forecast host table changes), s₁) := by
  rw [dryRun, Pipeline.run_of_isSilent (Pipeline.isSilent_ofTable _ _)]
  simp only [Pipeline.ofTable, StateT.run_bind]
  rcases (config.source host config.pr).run s with ⟨_ | changes, s₁⟩
  · rfl
  · rfl

theorem run_clientRun (table : RuleTable) (client : Client) (s : σ) :
    (config.clientRun host table client).run s
      = match (config.source host config.pr).run s with
        | (.error e, s₁) => (.error e, s₁)
        | (.ok changes, s₁) =>
          let ran := ((config.applied host table changes).run client).run s₁
          (.ok { config.forecast host table changes with report := some ran.1.1 }, ran.2) := by
  rw [clientRun, Pipeline.run_of_isSilent (Pipeline.isSilent_ofTable _ _)]
  simp only [Pipeline.ofTable, StateT.run_bind, StateT.run_monadLift]
  rcases (config.source host config.pr).run s with ⟨_ | changes, s₁⟩
  · rfl
  · rfl

variable {host config} {table : RuleTable} {s s₁ : σ}

theorem run_label_of_error {e : ConfigError} (hload : config.load host s = (.error e, s₁)) :
    (config.label host).run s = (.error (.config e), s₁) := by
  have htable : RuleTable.ofFile config.rulesPath ((host.readFile config.rulesPath).run s).1
      = .error e := congrArg Prod.fst hload
  have hstate : ((host.readFile config.rulesPath).run s).2 = s₁ := congrArg Prod.snd hload
  unfold label
  rw [StateM.run_bind, htable, hstate]
  rfl

theorem run_label_of_ok (hload : config.load host s = (.ok table, s₁)) :
    (config.label host).run s = (config.runWith host table).run s₁ := by
  have htable : RuleTable.ofFile config.rulesPath ((host.readFile config.rulesPath).run s).1
      = .ok table := congrArg Prod.fst hload
  have hstate : ((host.readFile config.rulesPath).run s).2 = s₁ := congrArg Prod.snd hload
  unfold label
  rw [StateM.run_bind, htable, hstate]

/-- Without a target the way is decided by git. -/
theorem labelling_dryRun (hload : config.load host s = (.ok table, s₁))
    (htarget : config.target = none) :
    Labelling host config s (((config.runWith host table).run s₁).1)
      (((config.runWith host table).run s₁).2) := by
  have hrun : (config.runWith host table).run s₁
      = (((config.dryRun host table).run s₁).1.mapError .fetch,
          ((config.dryRun host table).run s₁).2) := by
    unfold runWith
    rw [htarget]
    rfl
  rw [hrun, run_dryRun]
  cases hfetch : (config.source host config.pr).run s₁ with
  | mk fetched s₂ =>
    cases fetched with
    | error e => exact .badFetch hload (fun _ h => by rw [htarget] at h; cases h) hfetch
    | ok changes => exact .forecast hload htarget hfetch

/-- With a client it is decided by git as well: whatever the tracker does, there is a summary. -/
theorem labelling_clientRun {target : Target} {client : Client}
    (hload : config.load host s = (.ok table, s₁)) (htarget : config.target = some target)
    (hclient : Client.ofTarget target = .ok client) :
    Labelling host config s (((config.runWith host table).run s₁).1)
      (((config.runWith host table).run s₁).2) := by
  have hrun : (config.runWith host table).run s₁
      = (((config.clientRun host table client).run s₁).1.mapError .fetch,
          ((config.clientRun host table client).run s₁).2) := by
    unfold runWith
    rw [htarget]
    dsimp only
    rw [hclient]
    rfl
  rw [hrun, run_clientRun]
  cases hfetch : (config.source host config.pr).run s₁ with
  | mk fetched s₂ =>
    cases fetched with
    | error e =>
      refine .badFetch hload (fun other h => ⟨client, ?_⟩) hfetch
      rw [htarget] at h
      rw [← Option.some.inj h, hclient]
    | ok changes => exact .applied hload htarget hclient hfetch rfl

/-- **There are no other ways.** -/
theorem labelling (host : Host (StateM σ)) (config : Config) (s : σ) :
    Labelling host config s ((config.label host).run s).1 ((config.label host).run s).2 := by
  cases hload : config.load host s with
  | mk loaded s₁ =>
    cases loaded with
    | error e =>
      rw [run_label_of_error hload]
      exact .badTable hload
    | ok table =>
      rw [run_label_of_ok hload]
      cases htarget : config.target with
      | none => exact labelling_dryRun hload htarget
      | some target =>
        cases hclient : Client.ofTarget target with
        | ok client => exact labelling_clientRun hload htarget hclient
        | error e =>
          have hrun : (config.runWith host table).run s₁ = (.error (.tracker e), s₁) := by
            unfold runWith
            rw [htarget]
            dsimp only
            rw [hclient]
            rfl
          rw [hrun]
          exact .badClient hload htarget hclient

end Config

/-! ## What all ways have in common -/

namespace Labelling

variable {σ : Type} {host : Host (StateM σ)} {config : Config} {s s' : σ}
  {result : Except RunError Summary}

/-- The report of a labelling is that of a shape which fits the decision. -/
theorem exists_course {summary : Summary} {report : Report}
    (h : Labelling host config s (.ok summary) s') (hreport : summary.report = some report) :
    ∃ (table : RuleTable) (course : Application),
      course.Fits table.applier table summary.decision ∧ report = course.report := by
  cases h with
  | forecast => cases hreport
  | @applied table s₁ s₂ _ target client client' changes _ hload htarget hclient hfetch happly =>
    -- the client and its network are one state to the application
    have hjoined := table.applier.run_joined (Client.tracker host.network) config.pr
      (config.forecast host table changes).decision table client s₂
    obtain ⟨course, hfits, hcourse⟩ := table.applier.exists_course
      (Client.tracker host.network).joined config.pr
      (config.forecast host table changes).decision table (client, s₂)
    refine ⟨table, course, hfits, ?_⟩
    rw [← hcourse, hjoined, ← Option.some.inj hreport]
    exact congrArg (fun ran => ran.1.1) happly.symm

variable {E : Evolution σ} (hread : ∀ path, E.Bounds (host.readFile path))
  (hgit : ∀ directory args, E.Bounds ((host.git directory).run args))

include hread in
theorem allows_load {loaded : Except ConfigError RuleTable}
    (h : config.load host s = (loaded, s')) : E.Allows s s' := by
  have hstate : s' = ((host.readFile config.rulesPath).run s).2 := (congrArg Prod.snd h).symm
  rw [hstate]
  exact hread config.rulesPath s

include hgit in
theorem allows_fetch {fetched : Except FetchError ChangeSet}
    (h : (config.source host config.pr).run s = (fetched, s')) : E.Allows s s' := by
  have hbounds : E.Bounds (config.source host config.pr) :=
    Evolution.bounds_changes (hgit config.repoDir) config.baseRef config.headRef
  have hstate : s' = ((config.source host config.pr).run s).2 := (congrArg Prod.snd h).symm
  rw [hstate]
  exact hbounds s

/-- Applying a decision does what the network does. -/
theorem allows_applied (hnetwork : E.BoundsNetwork host.network) {table : RuleTable}
    {changes : ChangeSet} {client client' : Client} {report : Report}
    (h : ((config.applied host table changes).run client).run s = ((report, client'), s')) :
    E.Allows s s' := by
  have hbounds := Evolution.boundsWith_apply hnetwork table.applier config.pr
    (config.forecast host table changes).decision table client s
  have hstate : s' = (((config.applied host table changes).run client).run s).2 :=
    (congrArg Prod.snd h).symm
  rw [hstate]
  exact hbounds

include hread hgit

/-- A labelling that ends with a fault has done no more than read files and run git. -/
theorem allows_of_error {e : RunError} (h : Labelling host config s (.error e) s') :
    E.Allows s s' := by
  cases h with
  | badTable hload => exact allows_load hread hload
  | badClient hload => exact allows_load hread hload
  | badFetch hload _ hfetch =>
    exact E.trans (allows_load hread hload) (allows_fetch hgit hfetch)

/-- Whatever way it goes, a labelling does what reading, git and the network do. -/
theorem allows (hnetwork : E.BoundsNetwork host.network)
    (h : Labelling host config s result s') : E.Allows s s' := by
  cases h with
  | badTable hload => exact allows_load hread hload
  | badClient hload => exact allows_load hread hload
  | badFetch hload _ hfetch =>
    exact E.trans (allows_load hread hload) (allows_fetch hgit hfetch)
  | forecast hload _ hfetch =>
    exact E.trans (allows_load hread hload) (allows_fetch hgit hfetch)
  | applied hload _ _ hfetch happly =>
    exact E.trans (E.trans (allows_load hread hload) (allows_fetch hgit hfetch))
      (allows_applied hnetwork happly)

end Labelling

end PathLabels
