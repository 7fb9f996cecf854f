import PathLabels.Pipeline
import PathLabels.Proofs.Evolution

/-!
# The order of the stages

A run goes from stage to stage, and each thing that it does belongs to one of them: the source is
asked for the changes while the run is fetching, and the tracker is called while it is applying. To
speak about that, a pipeline is watched: whenever a stage is left for another, whenever the source
is asked and whenever the tracker is called, a move is written down.

What one run writes down is known but for the calls. So the moves of many runs, one after the other,
lead from stage to stage without a gap, and nothing is done out of its stage.
-/

namespace PathLabels

/-- What a run does. -/
inductive Move where
  /-- A stage is left for another. -/
  | enter (before next : Stage)
  /-- The source is asked for the changes of a pull request. -/
  | fetch (pr : Nat)
  /-- The tracker is called. -/
  | call (c : TrackerCall)
  deriving Repr, DecidableEq

/-- The pull request for which the source is asked. -/
def Move.fetched? : Move → Option Nat
  | .fetch pr => some pr
  | _ => none

namespace Stage

/-- The stages that may follow a stage. -/
def followers : Stage → List Stage
  | idle => [fetching]
  | fetching => [matching, failed]
  | matching => [applying, done]
  | applying => [done]
  | done => [fetching]
  | failed => [fetching]

/-- There is no run under way. -/
def IsAtRest (stage : Stage) : Prop := stage = idle ∨ stage = done ∨ stage = failed

instance (stage : Stage) : Decidable stage.IsAtRest := inferInstanceAs (Decidable (_ ∨ _ ∨ _))

theorem IsAtRest.followers_eq {stage : Stage} (h : stage.IsAtRest) :
    stage.followers = [fetching] := by
  rcases h with rfl | rfl | rfl
  · rfl
  · rfl
  · rfl

end Stage

/-- The moves lead from one stage to another, and each is made in its stage. -/
inductive Orderly : Stage → List Move → Stage → Prop where
  | nil (stage : Stage) : Orderly stage [] stage
  | enter {before next last : Stage} {moves : List Move} :
      next ∈ before.followers → Orderly next moves last →
      Orderly before (.enter before next :: moves) last
  | fetch {pr : Nat} {last : Stage} {moves : List Move} :
      Orderly .fetching moves last → Orderly .fetching (.fetch pr :: moves) last
  | call {c : TrackerCall} {last : Stage} {moves : List Move} :
      Orderly .applying moves last → Orderly .applying (.call c :: moves) last

namespace Orderly

variable {first middle last : Stage} {moves moves' : List Move}

theorem append (h : Orderly first moves middle) (h' : Orderly middle moves' last) :
    Orderly first (moves ++ moves') last := by
  induction h with
  | nil => exact h'
  | enter hnext _ ih => exact .enter hnext (ih h')
  | fetch _ ih => exact .fetch (ih h')
  | call _ ih => exact .call (ih h')

theorem calls (calls : List TrackerCall) : Orderly .applying (calls.map .call) .applying := by
  induction calls with
  | nil => exact .nil _
  | cons c calls ih => exact .call ih

end Orderly

variable {σ : Type}

namespace Pipeline

/-! ## One run -/

section

variable (p : Pipeline (StateM σ)) {pr : Nat} {s s₁ : σ}

/-- The state once a change of stage has been told. -/
def told (before next : Stage) (s : σ) : σ := ((p.announce before next).run s).2

/-- A run asks its source after it has told of its first stage. -/
theorem run_source_entered {fetched : Except FetchError ChangeSet}
    (hfetch : (p.source pr).run (p.told p.stage .fetching s) = (fetched, s₁)) :
    (((p.enter .fetching).run s).1.source pr).run ((p.enter .fetching).run s).2
      = (fetched, s₁) := hfetch

theorem run_of_error (tracker? : Option (Tracker (StateM σ))) {e : FetchError}
    (hfetch : (p.source pr).run (p.told p.stage .fetching s) = (.error e, s₁)) :
    (p.run pr tracker?).run s
      = ((.error e, { p with stage := .failed }), p.told .fetching .failed s₁) := by
  rw [run, StateM.run_bind, StateM.run_bind, p.run_source_entered hfetch]
  rfl

theorem run_of_forecast {changes : ChangeSet}
    (hfetch : (p.source pr).run (p.told p.stage .fetching s) = (.ok changes, s₁)) :
    (p.run pr none).run s
      = ((.ok (p.forecast pr changes), { p with stage := .done }),
        p.told .matching .done (p.told .fetching .matching s₁)) := by
  rw [run, StateM.run_bind, StateM.run_bind, p.run_source_entered hfetch]
  rfl

theorem run_of_applied (tracker : Tracker (StateM σ)) {changes : ChangeSet}
    (hfetch : (p.source pr).run (p.told p.stage .fetching s) = (.ok changes, s₁)) :
    let summary := p.forecast pr changes
    let ran := (p.applier.apply tracker pr summary.decision p.table).run
      (p.told .matching .applying (p.told .fetching .matching s₁))
    (p.run pr (some tracker)).run s
      = ((.ok { summary with report := some ran.1 }, { p with stage := .done }),
        p.told .applying .done ran.2) := by
  rw [run, StateM.run_bind, StateM.run_bind, p.run_source_entered hfetch]
  rfl

end

end Pipeline

/-! ## Watching -/

/-- The tracker whose calls are written down. -/
def Tracker.watched (tracker : Tracker (StateM σ)) : Tracker (StateM (List Move × σ)) where
  list pr := fun w =>
    let (answer, s) := (tracker.list pr).run w.2
    (answer, (w.1 ++ [.call (.list pr)], s))
  add pr label := fun w =>
    let (answer, s) := (tracker.add pr label).run w.2
    (answer, (w.1 ++ [.call (.add pr label)], s))
  pause d := fun w =>
    let (answer, s) := (tracker.pause d).run w.2
    (answer, (w.1, s))

namespace Pipeline

/-- The pipeline whose moves are written down. -/
def watched (p : Pipeline (StateM σ)) : Pipeline (StateM (List Move × σ)) where
  source pr := fun w =>
    let (fetched, s) := (p.source pr).run w.2
    (fetched, (w.1 ++ [.fetch pr], s))
  table := p.table
  applier := p.applier
  announce before next := fun w =>
    let (answer, s) := (p.announce before next).run w.2
    (answer, (w.1 ++ [.enter before next], s))
  stage := p.stage

end Pipeline

/-- Being watched changes nothing, and all that is written down are calls. -/
def Tracker.watchedSimulation (tracker : Tracker (StateM σ)) :
    Simulation tracker.watched tracker where
  Relates x y := ∀ moves s, ∃ calls : List TrackerCall,
    x.run (moves, s) = ((y.run s).1, (moves ++ calls.map .call, (y.run s).2))
  pure _ moves _ := ⟨[], by rw [List.map_nil, List.append_nil]; rfl⟩
  bind {_ _ x y f g} hx hf moves s := by
    obtain ⟨calls, hcalls⟩ := hx moves s
    obtain ⟨calls', hcalls'⟩ := hf (y.run s).1 (moves ++ calls.map .call) (y.run s).2
    refine ⟨calls ++ calls', ?_⟩
    rw [StateM.run_bind, hcalls, hcalls', List.map_append, List.append_assoc]
    rfl
  list pr _ _ := ⟨[.list pr], rfl⟩
  add pr label _ _ := ⟨[.add pr label], rfl⟩
  pause _ moves _ := ⟨[], by rw [List.map_nil, List.append_nil]; rfl⟩

namespace Pipeline

/-- The moves of a run from a stage on, by how it ends: with a fault, or with a summary, for which
the tracker is called if there is one. -/
def movesOf (stage : Stage) (pr : Nat) (isDry : Bool) (calls : List TrackerCall) :
    Except FetchError Summary → List Move
  | .error _ => [.enter stage .fetching, .fetch pr, .enter .fetching .failed]
  | .ok _ =>
    [.enter stage .fetching, .fetch pr, .enter .fetching .matching]
      ++ if isDry then [.enter .matching .done]
        else .enter .matching .applying :: (calls.map .call ++ [.enter .applying .done])

/-- The stage in which a run ends. -/
def endOf : Except FetchError Summary → Stage
  | .error _ => .failed
  | .ok _ => .done

theorem isAtRest_endOf (result : Except FetchError Summary) : (endOf result).IsAtRest := by
  cases result with
  | error e => exact Or.inr (Or.inr rfl)
  | ok summary => exact Or.inr (Or.inl rfl)

/-- **The moves of a run are in order.** -/
theorem orderly_movesOf {stage : Stage} (h : stage.IsAtRest) (pr : Nat) (isDry : Bool)
    (calls : List TrackerCall) (result : Except FetchError Summary) :
    Orderly stage (movesOf stage pr isDry calls result) (endOf result) := by
  have hstart : Stage.fetching ∈ stage.followers := by
    rw [h.followers_eq]
    exact List.mem_cons_self
  cases result with
  | error e => exact .enter hstart (.fetch (.enter (by decide) (.nil _)))
  | ok summary =>
    refine .enter hstart (.fetch (.enter (by decide) ?_))
    cases isDry with
    | true => exact .enter (by decide) (.nil _)
    | false =>
      exact .enter (by decide) ((Orderly.calls calls).append (.enter (by decide) (.nil _)))

/-- The source is asked once. -/
theorem filterMap_movesOf (stage : Stage) (pr : Nat) (isDry : Bool) (calls : List TrackerCall)
    (result : Except FetchError Summary) :
    (movesOf stage pr isDry calls result).filterMap Move.fetched? = [pr] := by
  have hcalls : (calls.map Move.call).filterMap Move.fetched? = [] := by
    rw [List.filterMap_map]
    exact List.filterMap_eq_nil_iff.mpr fun _ _ => rfl
  cases result with
  | error e => rfl
  | ok summary =>
    cases isDry with
    | true => rfl
    | false =>
      have hrest : (calls.map Move.call ++ [Move.enter .applying .done]).filterMap Move.fetched?
          = [] := by
        rw [List.filterMap_append, hcalls]
        rfl
      exact congrArg (pr :: ·) hrest

section

variable (p : Pipeline (StateM σ)) (moves : List Move) (s : σ)

theorem told_watched (before next : Stage) :
    p.watched.told before next (moves, s)
      = (moves ++ [.enter before next], p.told before next s) := rfl

theorem run_source_watched (pr : Nat) :
    (p.watched.source pr).run (moves, s)
      = (((p.source pr).run s).1, (moves ++ [.fetch pr], ((p.source pr).run s).2)) := rfl

/-- **A run is watched from its first stage to its last.** What it returns and does is what it
returns and does when nobody watches. -/
theorem run_watched (pr : Nat) (tracker? : Option (Tracker (StateM σ))) :
    let ran := (p.run pr tracker?).run s
    ∃ calls, (p.watched.run pr (tracker?.map Tracker.watched)).run (moves, s)
        = ((ran.1.1, ran.1.2.watched),
          (moves ++ movesOf p.stage pr tracker?.isNone calls ran.1.1, ran.2))
      ∧ ran.1.2 = { p with stage := endOf ran.1.1 } := by
  cases hfetch : (p.source pr).run (p.told p.stage .fetching s) with
  | mk fetched s₁ =>
    have hwatched : (p.watched.source pr).run (p.watched.told p.watched.stage .fetching (moves, s))
        = (fetched, (moves ++ [.enter p.stage .fetching] ++ [.fetch pr], s₁)) := by
      rw [told_watched, run_source_watched]
      exact congrArg (fun r => (r.1, (_, r.2))) hfetch
    cases fetched with
    | error e =>
      rw [p.run_of_error tracker? hfetch, p.watched.run_of_error _ hwatched, told_watched]
      refine ⟨[], ?_, rfl⟩
      rw [List.append_assoc, List.append_assoc]
      rfl
    | ok changes =>
      cases tracker? with
      | none =>
        rw [p.run_of_forecast hfetch, Option.map_none, p.watched.run_of_forecast hwatched,
          told_watched, told_watched]
        refine ⟨[], ?_, rfl⟩
        rw [List.append_assoc, List.append_assoc, List.append_assoc]
        rfl
      | some tracker =>
        rw [p.run_of_applied tracker hfetch, Option.map_some,
          p.watched.run_of_applied tracker.watched hwatched, told_watched, told_watched]
        -- the calls are those of the application, whatever has been written down before it
        obtain ⟨calls, hcalls⟩ := tracker.watchedSimulation.relates_apply p.applier pr
          (p.forecast pr changes).decision p.table
          (moves ++ [.enter p.stage .fetching] ++ [.fetch pr] ++ [.enter .fetching .matching]
            ++ [.enter .matching .applying])
          (p.told .matching .applying (p.told .fetching .matching s₁))
        have happly : (p.watched.applier.apply tracker.watched pr
            (p.watched.forecast pr changes).decision p.watched.table).run _ = _ := hcalls
        rw [happly, told_watched]
        refine ⟨calls, ?_, rfl⟩
        simp only [List.append_assoc]
        rfl

end

/-! ## Many runs -/

/-- Runs of one pipeline, one after the other: each is for a pull request, and has a tracker or
none. -/
def runs {m : Type → Type} [Monad m] (p : Pipeline m) :
    List (Nat × Option (Tracker m)) → m (List (Except FetchError Summary) × Pipeline m)
  | [] => return ([], p)
  | (pr, tracker?) :: jobs => do
    let (result, p) ← p.run pr tracker?
    let (results, p) ← p.runs jobs
    return (result :: results, p)

theorem run_runs_cons (p : Pipeline (StateM σ)) (job : Nat × Option (Tracker (StateM σ)))
    (jobs : List (Nat × Option (Tracker (StateM σ)))) (s : σ) :
    (p.runs (job :: jobs)).run s
      = (let ran := (p.run job.1 job.2).run s
         let rest := (ran.1.2.runs jobs).run ran.2
         ((ran.1.1 :: rest.1.1, rest.1.2), rest.2)) := rfl

/--
**The stages are gone through in order**, run after run.

Take any pipeline with no run under way and any runs of it, over any source and any trackers. What
they do when they are watched is what they do anyway. Their moves lead from the stage before the first
run to the one after the last, each stage being one that may follow the stage before it: the source is
asked while a run is fetching, once for each run, and a tracker is called while a run is applying. In
the end there is no run under way again.
-/
theorem runs_orderly (p : Pipeline (StateM σ)) (hrest : p.stage.IsAtRest)
    (jobs : List (Nat × Option (Tracker (StateM σ)))) (moves : List Move) (s : σ) :
    let ran := (p.runs jobs).run s
    ∃ more, (p.watched.runs (jobs.map fun job => (job.1, job.2.map Tracker.watched))).run (moves, s)
        = ((ran.1.1, ran.1.2.watched), (moves ++ more, ran.2))
      ∧ Orderly p.stage more ran.1.2.stage
      ∧ more.filterMap Move.fetched? = jobs.map Prod.fst
      ∧ ran.1.2.stage.IsAtRest := by
  -- a run leaves the pipeline as it was but for the stage, in which no run is under way
  induction jobs generalizing p moves s with
  | nil => exact ⟨[], by rw [List.append_nil]; rfl, .nil _, rfl, hrest⟩
  | cons job jobs ih =>
    obtain ⟨pr, tracker?⟩ := job
    obtain ⟨calls, hwatched, hend⟩ := p.run_watched moves s pr tracker?
    rw [run_runs_cons, List.map_cons, run_runs_cons, hwatched]
    generalize (p.run pr tracker?).run s = ran at hend ⊢
    obtain ⟨⟨result, p'⟩, s'⟩ := ran
    dsimp only at hend ⊢
    subst hend
    obtain ⟨more, hmore, horderly, hfetched, hrest'⟩ := ih { p with stage := endOf result }
      (isAtRest_endOf result) (moves ++ movesOf p.stage pr tracker?.isNone calls result) s'
    rw [hmore]
    refine ⟨movesOf p.stage pr tracker?.isNone calls result ++ more, ?_, ?_, ?_, hrest'⟩
    · rw [List.append_assoc]
    · exact (orderly_movesOf hrest pr _ calls result).append horderly
    · rw [List.filterMap_append, filterMap_movesOf, hfetched]
      rfl

end Pipeline

end PathLabels
