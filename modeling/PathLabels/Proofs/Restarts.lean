import PathLabels.Pipeline
import PathLabels.Proofs.Skip
import PathLabels.Tracker.Journal
import PathLabels.Tracker.Memory

/-!
# A run leaves nothing behind but what the tracker holds

One pipeline makes many runs: some do not learn the changes, some have no tracker, some add labels.
What a run leaves in the pipeline is the stage at which it ended, and the next run does not look at
it. So each run is the one that a new pipeline would make. A run that comes to no call changes
nothing at all, and might as well not have been made.
-/

namespace PathLabels

/-- Programs that are told which changes are found and that call a tracker. The calls are written
down. -/
abbrev Session (σ : Type) := ReaderT (Except FetchError ChangeSet) (StateT Journal (StateM σ))

/-- A run as it is asked for. -/
structure Job where
  pr : Nat
  /-- What the change source gives at the time. -/
  fetched : Except FetchError ChangeSet
  /-- Whether the run has no tracker. -/
  dry : Bool

/-- What becomes of a run. -/
structure Ran (σ : Type) where
  result : Except FetchError Summary
  /-- Where the pipeline has got to. -/
  stage : Stage
  /-- What has been asked of the tracker. -/
  journal : Journal
  /-- The tracker afterwards. -/
  tracker : σ

/-- The stage of the pipeline says how the run ended, and it ended with a fault only if the changes
were not learned. -/
structure Ran.Ends {σ : Type} (ran : Ran σ) (fetched : Except FetchError ChangeSet) : Prop where
  done : ran.stage = .done ↔ ∃ summary, ran.result = .ok summary
  failed : ran.stage = .failed ↔ ∃ e, ran.result = .error e
  fault : ∀ e, ran.result = .error e ↔ fetched = .error e

variable {σ : Type}

namespace Session

/-- The source that gives the changes that are found at the time. -/
def source : ChangeSource (Session σ) := fun _ => read

/-- A tracker as it is called in a session. -/
def tracker (tracker : Tracker (StateM σ)) : Tracker (Session σ) where
  list pr := fun _ => tracker.recorded.list pr
  add pr label := fun _ => tracker.recorded.add pr label
  pause d := fun _ => tracker.recorded.pause d

/-- A new pipeline for a table. -/
def start (table : RuleTable) (applier : Applier) : Pipeline (Session σ) :=
  { Pipeline.ofTable source table with applier }

/-- The pipeline after runs of which the last one ended at a stage. -/
def pipeline (table : RuleTable) (applier : Applier) (stage : Stage) : Pipeline (Session σ) :=
  { start table applier with stage }

end Session

namespace Job

/-- Whether the run comes to calling the tracker, if there is anything to call it for. -/
def isReal (job : Job) : Bool := !job.dry && job.fetched.isOk

/-- One run of a pipeline, and the pipeline after it. -/
def run (tracker : Tracker (StateM σ)) (p : Pipeline (Session σ)) (s : σ) (job : Job) :
    Ran σ × Pipeline (Session σ) :=
  let tracker? := if job.dry then none else some (Session.tracker tracker)
  let (((result, p'), journal), s') := (((p.run job.pr tracker?).run job.fetched).run {}).run s
  ({ result, stage := p'.stage, journal, tracker := s' }, p')

/-- Runs of one pipeline, one after the other, and the tracker after the last one. -/
def runs (tracker : Tracker (StateM σ)) (p : Pipeline (Session σ)) (s : σ) :
    List Job → List (Ran σ) × σ
  | [] => ([], s)
  | job :: jobs =>
    let (ran, p') := job.run tracker p s
    let (rans, s') := runs tracker p' ran.tracker jobs
    (ran :: rans, s')

variable (tracker : Tracker (StateM σ)) (table : RuleTable) (applier : Applier)

/-! ## One run -/

/-- What becomes of a run, whatever the stage before it. -/
def outcome (s : σ) (job : Job) : Ran σ :=
  match job.fetched with
  | .error e => ⟨.error e, .failed, {}, s⟩
  | .ok changes =>
    let forecast := (Session.start table applier : Pipeline (Session σ)).forecast job.pr changes
    if job.dry then ⟨.ok forecast, .done, {}, s⟩
    else
      let ran := (((applier.apply (Session.tracker tracker) job.pr forecast.decision table).run
        (.ok changes)).run {}).run s
      ⟨.ok { forecast with report := some ran.1.1 }, .done, ran.1.2, ran.2⟩

/-- **A run does not look at the stage**, and changes nothing else of the pipeline. -/
theorem run_eq (stage : Stage) (s : σ) (job : Job) :
    job.run tracker (Session.pipeline table applier stage) s
      = (job.outcome tracker table applier s,
        Session.pipeline table applier (job.outcome tracker table applier s).stage) := by
  obtain ⟨pr, fetched, dry⟩ := job
  -- once it is known what the source gives and whether there is a tracker, both sides are computed
  cases fetched with
  | error e => rfl
  | ok changes =>
    cases dry with
    | true => rfl
    | false => rfl

theorem run_start (s : σ) (job : Job) :
    job.run tracker (Session.start table applier) s
      = (job.outcome tracker table applier s,
        Session.pipeline table applier (job.outcome tracker table applier s).stage) :=
  run_eq tracker table applier .idle s job

theorem ends_outcome (s : σ) (job : Job) :
    (job.outcome tracker table applier s).Ends job.fetched := by
  obtain ⟨pr, fetched, dry⟩ := job
  cases fetched with
  | error e =>
    refine ⟨⟨nofun, nofun⟩, ⟨fun _ => ⟨e, rfl⟩, fun _ => rfl⟩, fun e' => ?_⟩
    exact ⟨fun h => congrArg Except.error (Except.error.inj h),
      fun h => congrArg Except.error (Except.error.inj h)⟩
  | ok changes =>
    cases dry with
    | true => exact ⟨⟨fun _ => ⟨_, rfl⟩, fun _ => rfl⟩, ⟨nofun, nofun⟩, fun e => ⟨nofun, nofun⟩⟩
    | false => exact ⟨⟨fun _ => ⟨_, rfl⟩, fun _ => rfl⟩, ⟨nofun, nofun⟩, fun e => ⟨nofun, nofun⟩⟩

/-- **A run that is not real asks nothing of the tracker and leaves it as it is.** -/
theorem outcome_of_not_real {job : Job} (h : job.isReal = false) (s : σ) :
    (job.outcome tracker table applier s).journal = {}
      ∧ (job.outcome tracker table applier s).tracker = s := by
  obtain ⟨pr, fetched, dry⟩ := job
  cases fetched with
  | error e => exact ⟨rfl, rfl⟩
  | ok changes =>
    cases dry with
    | true => exact ⟨rfl, rfl⟩
    | false => cases h

/-! ## Many runs -/

theorem runs_stage (stage : Stage) (s : σ) (jobs : List Job) :
    runs tracker (Session.pipeline table applier stage) s jobs
      = runs tracker (Session.start table applier) s jobs := by
  cases jobs with
  | nil => rfl
  | cons job jobs => rw [runs, runs, run_eq, run_start]

theorem runs_cons (s : σ) (job : Job) (jobs : List Job) :
    let ran := job.outcome tracker table applier s
    let rest := runs tracker (Session.start table applier) ran.tracker jobs
    runs tracker (Session.start table applier) s (job :: jobs) = (ran :: rest.1, rest.2) := by
  intro ran rest
  rw [runs, run_start]
  dsimp only
  rw [runs_stage]

theorem runs_append (s : σ) (before after : List Job) :
    let first := runs tracker (Session.start table applier) s before
    let rest := runs tracker (Session.start table applier) first.2 after
    runs tracker (Session.start table applier) s (before ++ after)
      = (first.1 ++ rest.1, rest.2) := by
  induction before generalizing s with
  | nil => rfl
  | cons job before ih =>
    intro first rest
    have hfirst : first = _ := runs_cons tracker table applier s job before
    rw [List.cons_append, runs_cons, ih]
    show _ = (first.1 ++ (runs tracker _ first.2 after).1, (runs tracker _ first.2 after).2)
    rw [hfirst]
    rfl

theorem length_runs (s : σ) (jobs : List Job) :
    (runs tracker (Session.start table applier) s jobs).1.length = jobs.length := by
  induction jobs generalizing s with
  | nil => rfl
  | cons job jobs ih => rw [runs_cons, List.length_cons, ih, List.length_cons]

/-- **Runs that are not real can be left out.** -/
theorem runs_filter (s : σ) (jobs : List Job) :
    let all := runs tracker (Session.start table applier) s jobs
    runs tracker (Session.start table applier) s (jobs.filter isReal)
      = (((jobs.zip all.1).filter fun e => e.1.isReal).map Prod.snd, all.2) := by
  induction jobs generalizing s with
  | nil => rfl
  | cons job jobs ih =>
    intro all
    have hall : all = _ := runs_cons tracker table applier s job jobs
    rw [hall, List.zip_cons_cons]
    cases hreal : job.isReal with
    | true =>
      simp only [List.filter_cons, hreal, if_true]
      rw [runs_cons, ih, List.map_cons]
    | false =>
      -- the runs that follow begin with the tracker as it was before this one
      simp only [List.filter_cons, hreal, Bool.false_eq_true, if_false]
      rw [(outcome_of_not_real tracker table applier hreal s).2, ih]

/--
**The runs of one pipeline touch each other through the tracker only.**

Take any tracker and any table, a new pipeline for the table, and any runs of it one after the
other: real ones, ones without a tracker, and ones that do not learn the changes. After each run the
stage says whether it ended with a summary or with a fault, and it ends with a fault exactly if the
source gives that fault. A run that does not learn the changes or has no tracker makes no call and
leaves the tracker as it is. Each run is the one that a new pipeline makes of the tracker that the
runs before have left. And without the runs that are not real, the others are the same, and so is
the tracker in the end.
-/
theorem runs_restart (s : σ) (jobs : List Job) :
    let start := Session.start table applier
    let all := runs tracker start s jobs
    (∀ before job after, jobs = before ++ job :: after →
        let here := (runs tracker start s before).2
        ∃ ran, all.1[before.length]? = some ran ∧ ran.Ends job.fetched
          ∧ (job.isReal = false → ran.journal = {} ∧ ran.tracker = here)
          ∧ ran = (job.run tracker start here).1)
      ∧ all.1.length = jobs.length
      ∧ runs tracker start s (jobs.filter isReal)
          = (((jobs.zip all.1).filter fun e => e.1.isReal).map Prod.snd, all.2) := by
  intro start all
  refine ⟨?_, length_runs tracker table applier s jobs, runs_filter tracker table applier s jobs⟩
  rintro before job after rfl here
  refine ⟨job.outcome tracker table applier here, ?_, ends_outcome tracker table applier here job,
    fun hreal => outcome_of_not_real tracker table applier hreal here,
    (congrArg Prod.fst (run_start tracker table applier here job)).symm⟩
  have hall : all = _ := runs_append tracker table applier s before (job :: after)
  rw [hall, ← length_runs tracker table applier s before]
  dsimp only
  rw [runs_cons]
  rw [List.getElem?_append_right (Nat.le_refl _), Nat.sub_self]
  rfl

/-- A run that does not learn the changes, one that adds a label, one without a tracker, and one
that leaves the pull request alone for the label. -/
theorem runs_restart_mixed :
    let topology := ChangeSet.ofList ["Mathlib/Topology/Basic.lean"]
    let algebra := ChangeSet.ofList ["Mathlib/Algebra/Ring.lean"]
    let jobs : List Job := [⟨7, .error (.diffFailed "bad"), false⟩, ⟨7, .ok topology, false⟩,
      ⟨7, .ok algebra, true⟩, ⟨7, .ok algebra, false⟩]
    let start := Session.start .twoTopics { skipIfLabeled := true }
    let all := runs MemoryTracker.tracker start {} jobs
    all.1.map Ran.stage = [.failed, .done, .done, .done]
      ∧ all.1.map (fun ran => ran.journal.calls)
          = [[], [.list 7, .add 7 "t-topology"], [], [.list 7]]
      ∧ (runs MemoryTracker.tracker start {} (jobs.filter isReal)).2.labels = ["t-topology"] := by
  intro topology algebra jobs start all
  obtain ⟨-, -, hfilter⟩ :=
    runs_restart MemoryTracker.tracker .twoTopics { skipIfLabeled := true } {} jobs
  refine ⟨by decide +kernel, by decide +kernel, ?_⟩
  rw [hfilter]
  decide +kernel

end Job

end PathLabels
