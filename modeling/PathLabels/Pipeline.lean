import PathLabels.Applying
import PathLabels.Git.Basic

/-!
# Runs

A run learns which paths a pull request changes, resolves them into a decision and applies it. These
are its stages, and it goes through them in this order. A run without a tracker stops at the decision.
Nothing but a failure to learn the changes keeps a run from ending with a summary: what the tracker
does is part of the summary.
-/

namespace PathLabels

/-- Where the runs of a pipeline have got to. -/
inductive Stage where
  /-- There has been no run. -/
  | idle
  /-- The changes are being looked for. -/
  | fetching
  /-- The changes are resolved into a decision. -/
  | matching
  /-- The decision is being applied. -/
  | applying
  /-- The last run ended with a summary. -/
  | done
  /-- The last run ended with a fault. -/
  | failed
  deriving Repr, DecidableEq, Inhabited

/-- The name of a stage. -/
def Stage.name : Stage → String
  | .idle => "idle"
  | .fetching => "fetching"
  | .matching => "matching"
  | .applying => "applying"
  | .done => "done"
  | .failed => "failed"

/-- What a finished run did. -/
structure Summary where
  pr : Nat
  /-- The number of changed files. -/
  changedFiles : Nat
  matched : MatchResult
  decision : Decision
  /-- What applying the decision did; none if the run had no tracker. -/
  report : Option Report := none

/-- Whether a label could not be added. -/
def Summary.hasFailures (s : Summary) : Bool := s.report.any Report.hasFailures

/-- What runs have in common. -/
structure Pipeline (m : Type → Type) where
  source : ChangeSource m
  table : RuleTable
  applier : Applier
  /-- Tells of a change of stage: which one is left, and which one is entered. -/
  announce : Stage → Stage → m Unit
  stage : Stage := .idle

namespace Pipeline

variable {m : Type → Type} [Monad m]

/-- The pipeline for a table, with the skipping that the table asks for. Nobody is told of its
stages. -/
def ofTable (source : ChangeSource m) (table : RuleTable) : Pipeline m :=
  { source, table, applier := { skipIfLabeled := table.settings.skipIfLabeled }
    announce := fun _ _ => pure () }

/-- Goes on to a stage. -/
def enter (p : Pipeline m) (next : Stage) : m (Pipeline m) := do
  p.announce p.stage next
  return { p with stage := next }

/-- What a run without a tracker says about a change set. -/
def forecast (p : Pipeline m) (pr : Nat) (changes : ChangeSet) : Summary :=
  let matched := changes.evaluate p.table
  { pr, changedFiles := changes.size, matched, decision := matched.decide p.table.settings }

/-- Makes a run for a pull request. Without a tracker the decision is not applied. -/
def run (p : Pipeline m) (pr : Nat) (tracker? : Option (Tracker m)) :
    m (Except FetchError Summary × Pipeline m) := do
  let p ← p.enter .fetching
  match ← p.source pr with
  | .error e => return (.error e, ← p.enter .failed)
  | .ok changes =>
    let p ← p.enter .matching
    let summary := p.forecast pr changes
    match tracker? with
    | none => return (.ok summary, ← p.enter .done)
    | some tracker =>
      let p ← p.enter .applying
      let report ← p.applier.apply tracker pr summary.decision p.table
      return (.ok { summary with report := some report }, ← p.enter .done)

/-- Nobody is told of the stages. -/
def IsSilent (p : Pipeline m) : Prop := ∀ before next, p.announce before next = pure ()

theorem isSilent_ofTable (source : ChangeSource m) (table : RuleTable) :
    (ofTable source table).IsSilent := fun _ _ => rfl

/-- If nobody is told of the stages, only the last one of a run can be seen. -/
theorem run_of_isSilent [LawfulMonad m] {p : Pipeline m} (h : p.IsSilent) (pr : Nat)
    (tracker? : Option (Tracker m)) :
    p.run pr tracker? = (do
      match ← p.source pr with
      | .error e => return (.error e, { p with stage := .failed })
      | .ok changes =>
        let summary := p.forecast pr changes
        match tracker? with
        | none => return (.ok summary, { p with stage := .done })
        | some tracker =>
          let report ← p.applier.apply tracker pr summary.decision p.table
          return (.ok { summary with report := some report }, { p with stage := .done })) := by
  simp only [run, enter, h _ _, pure_bind]
  rfl

end Pipeline

end PathLabels
