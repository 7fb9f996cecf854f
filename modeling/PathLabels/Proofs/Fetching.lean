import PathLabels.Proofs.Components
import PathLabels.Proofs.Evolution
import PathLabels.Proofs.Utf8

/-!
# How the changed files are found

Git is run five times, and what it says at one step is what the next step asks about. So the runs
come in one order, and the first answer that is no good is the last one. The steps are listed here
for every list of answers: what git is asked for, and the fault that the answer means, if it means
one. Finding the changed files then is to go through the list up to the first fault.
-/

namespace PathLabels

/-- The answers of a git that starts at every step. -/
structure GitOutputs where
  version : GitOutput
  baseCommit : GitOutput
  headCommit : GitOutput
  mergeBase : GitOutput
  diff : GitOutput

/-- A step of finding the changed files: what git is asked for, and the fault that its answer
means. -/
structure FetchStep where
  args : List String
  fault? : Option FetchError

/-! ## Steps up to a fault -/

namespace FetchStep

/-- The steps that are taken. The first fault ends them. -/
def taken : List FetchStep → List FetchStep
  | [] => []
  | step :: steps => step :: (if step.fault?.isSome then [] else taken steps)

/-- The first fault. -/
def firstFault? (steps : List FetchStep) : Option FetchError := steps.findSome? fault?

variable {step : FetchStep} {steps before after : List FetchStep} {e : FetchError}

theorem taken_of_fault (h : step.fault? = some e) : taken (step :: steps) = [step] := by
  rw [taken, h]
  rfl

theorem taken_of_no_fault (h : step.fault? = none) :
    taken (step :: steps) = step :: taken steps := by
  rw [taken, h]
  rfl

theorem firstFault?_eq_none_iff :
    firstFault? steps = none ↔ ∀ step ∈ steps, step.fault? = none :=
  List.findSome?_eq_none_iff

end FetchStep

/-! ## The answers of git -/

namespace GitOutput

/-- The fault of a run that does not end with success. -/
def refusal? (output : GitOutput) (fault : FetchError) : Option FetchError :=
  if output.success then none else some fault

/-- The fault of an output that is to be text and is not. -/
def notText? (output : GitOutput) : Option FetchError :=
  match Text.decode output.stdout with
  | .ok _ => none
  | .error e => some (.invalidOutput e)

end GitOutput

/-- The state of a git that gives laid-down outputs in their order, whatever it is asked for. It
writes down what it is asked for. -/
structure GitTape where
  outputs : List GitOutput
  calls : List (List String) := []

/-- The git that always starts, as long as there are outputs. -/
def GitTape.git : Git (StateM GitTape) where
  run args := fun tape =>
    match tape.outputs with
    | [] => (.error .notFound, tape)
    | output :: rest => (.ok output, { outputs := rest, calls := tape.calls ++ [args] })

namespace GitOutputs

/-- Finds the changed files: the result, and what git was asked for. -/
def fetch (o : GitOutputs) (base head : String) :
    Except FetchError ChangeSet × List (List String) :=
  let (result, tape) := (GitTape.git.changes base head).run.run
    { outputs := [o.version, o.baseCommit, o.headCommit, o.mergeBase, o.diff] }
  (result, tape.calls)

/-- The steps, each with the fault that its answer means. How the first run ends makes no
difference. -/
def steps (o : GitOutputs) (base head : String) : List FetchStep :=
  let baseCommit := Git.trimmed o.baseCommit.stdout
  let headCommit := Git.trimmed o.headCommit.stdout
  let mergeBase := Git.trimmed o.mergeBase.stdout
  [{ args := ["--version"]
     fault? := none },
   { args := ["rev-parse", "--verify", "--quiet", Git.commitOf base]
     fault? := o.baseCommit.refusal? (.baseUnresolvable base (Git.trimmed o.baseCommit.stderr)) },
   { args := ["rev-parse", "--verify", "--quiet", Git.commitOf head]
     fault? := o.headCommit.refusal? (.headUnresolvable head (Git.trimmed o.headCommit.stderr)) },
   { args := ["merge-base", baseCommit, headCommit]
     fault? := (o.mergeBase.refusal? (.noMergeBase base head)).or o.mergeBase.notText? },
   { args := ["diff", "--name-only", "--no-renames", "-z", mergeBase, headCommit]
     fault? := (o.diff.refusal? (.diffFailed (Git.trimmed o.diff.stderr))).or o.diff.notText? }]

end GitOutputs

/-! ## Going through the steps -/

namespace GitTape

variable {α β : Type}

/-- From the outputs on, a program takes the steps up to the first fault. It ends with that fault,
or with the value if there is none. -/
def Takes (x : ExceptT FetchError (StateM GitTape) α) (outputs : List GitOutput)
    (steps : List FetchStep) (a : α) : Prop :=
  ∀ calls, ∃ left, x.run.run { outputs, calls }
    = ((FetchStep.firstFault? steps).elim (.ok a) .error,
        { outputs := left, calls := calls ++ (FetchStep.taken steps).map FetchStep.args })

variable {output : GitOutput} {outputs : List GitOutput} {steps : List FetchStep} {a : α}
  {args : List String} {fault? : Option FetchError}

theorem takes_pure : Takes (pure a) outputs [] a :=
  fun calls => ⟨outputs, by rw [FetchStep.taken, List.map_nil, List.append_nil]; rfl⟩

/-- A run of git is a step if the program stops at the fault of its output, and takes the other
steps if there is none. -/
theorem takes_cons {x : ExceptT FetchError (StateM GitTape) α}
    (hfault : ∀ e, fault? = some e → ∀ calls, x.run.run { outputs := output :: outputs, calls }
      = (.error e, { outputs, calls := calls ++ [args] }))
    (hrest : fault? = none → ∃ y, Takes y outputs steps a
      ∧ ∀ calls, x.run.run { outputs := output :: outputs, calls }
        = y.run.run { outputs, calls := calls ++ [args] }) :
    Takes x (output :: outputs) (⟨args, fault?⟩ :: steps) a := by
  intro calls
  cases hcase : fault? with
  | some e =>
    refine ⟨outputs, ?_⟩
    rw [hfault e hcase, FetchStep.taken_of_fault rfl]
    rfl
  | none =>
    obtain ⟨y, hy, hrun⟩ := hrest hcase
    obtain ⟨left, hleft⟩ := hy (calls ++ [args])
    refine ⟨left, ?_⟩
    rw [hrun, hleft, FetchStep.taken_of_no_fault rfl, List.map_cons, List.append_assoc]
    rfl

theorem takes_start {k : GitOutput → ExceptT FetchError (StateM GitTape) α}
    (hfault : ∀ e, fault? = some e → k output = throw e)
    (hrest : fault? = none → Takes (k output) outputs steps a) :
    Takes (git.start args >>= k) (output :: outputs) (⟨args, fault?⟩ :: steps) a := by
  refine takes_cons (fun e he calls => ?_) fun hnone => ⟨k output, hrest hnone, fun _ => rfl⟩
  show (k output).run.run _ = _
  rw [hfault e he]
  rfl

/-- The first run has no fault. -/
theorem takes_discard {k : Unit → ExceptT FetchError (StateM GitTape) α}
    (hrest : Takes (k ()) outputs steps a) :
    Takes (discard (git.start args) >>= k) (output :: outputs) (⟨args, none⟩ :: steps) a :=
  takes_cons nofun fun _ => ⟨k (), hrest, fun _ => rfl⟩

theorem run_resolve (fault : String → FetchError) (reference : String)
    (calls : List (List String)) :
    (git.resolve fault reference).run.run { outputs := output :: outputs, calls }
      = (if output.success then .ok (Git.trimmed output.stdout)
          else .error (fault (Git.trimmed output.stderr)),
        { outputs, calls := calls ++ [["rev-parse", "--verify", "--quiet",
            Git.commitOf reference]] }) := by
  show StateT.run (ExceptT.run (if output.success then _ else _)) _ = _
  split
  · rfl
  · rfl

theorem takes_resolve {k : String → ExceptT FetchError (StateM GitTape) α}
    {fault : String → FetchError} {reference : String}
    (hrest : Takes (k (Git.trimmed output.stdout)) outputs steps a) :
    Takes (git.resolve fault reference >>= k) (output :: outputs)
      (⟨["rev-parse", "--verify", "--quiet", Git.commitOf reference],
        output.refusal? (fault (Git.trimmed output.stderr))⟩ :: steps) a := by
  unfold GitOutput.refusal?
  refine takes_cons (fun e he calls => ?_) fun hnone => ⟨_, hrest, fun calls => ?_⟩
  · split at he
    · cases he
    · rename_i hsuccess
      cases he
      rw [ExceptT.run_bind, StateM.run_bind, run_resolve, if_neg hsuccess]
      rfl
  · split at hnone
    · rename_i hsuccess
      rw [ExceptT.run_bind, StateM.run_bind, run_resolve, if_pos hsuccess]
    · cases hnone

end GitTape

namespace GitOutput

variable {output : GitOutput} {fault e : FetchError}

theorem refusal?_eq_none_iff : output.refusal? fault = none ↔ output.success = true := by
  unfold refusal?
  split
  · rename_i h
    exact ⟨fun _ => h, fun _ => rfl⟩
  · rename_i h
    exact ⟨nofun, fun h' => absurd h' h⟩

theorem notText?_eq_none_iff :
    output.notText? = none ↔ ∃ text, Text.decode output.stdout = .ok text := by
  unfold notText?
  cases Text.decode output.stdout with
  | ok text => exact ⟨fun _ => ⟨text, rfl⟩, fun _ => rfl⟩
  | error e => exact ⟨nofun, fun ⟨_, h⟩ => nomatch h⟩

section

variable {α : Type} (rest : String → ExceptT FetchError (StateM GitTape) α)

/-- What is made of an output that has to be text of a run that has to succeed. -/
def checked (output : GitOutput) (fault : FetchError) : ExceptT FetchError (StateM GitTape) α :=
  if (!output.success) = true then do
    throw fault
    rest (← Git.changes.liftExcept (Git.textOf output.stdout))
  else do rest (← Git.changes.liftExcept (Git.textOf output.stdout))

theorem checked_of_fault (h : (output.refusal? fault).or output.notText? = some e) :
    checked rest output fault = throw e := by
  unfold refusal? at h
  unfold checked
  cases hsuccess : output.success with
  | false =>
    rw [hsuccess] at h
    cases h
    rfl
  | true =>
    rw [hsuccess] at h
    unfold notText? at h
    unfold Git.textOf
    cases htext : Text.decode output.stdout with
    | ok text => rw [htext] at h; cases h
    | error cause => rw [htext] at h; cases h; rfl

theorem checked_of_no_fault (h : (output.refusal? fault).or output.notText? = none) :
    checked rest output fault = rest (Text.decodeLossy output.stdout) := by
  obtain ⟨hsuccess, htext⟩ := Option.or_eq_none_iff.mp h
  obtain ⟨text, htext⟩ := notText?_eq_none_iff.mp htext
  unfold checked Git.textOf
  rw [refusal?_eq_none_iff.mp hsuccess, htext, Text.decodeLossy_of_decode htext]
  rfl

end

end GitOutput

/-- A run that has to succeed with a text is a step if the other steps are taken with that text. -/
theorem GitTape.takes_checked {α : Type} {k : GitOutput → ExceptT FetchError (StateM GitTape) α}
    {rest : String → ExceptT FetchError (StateM GitTape) α} {args : List String}
    {output : GitOutput} {outputs : List GitOutput} {fault : FetchError} {steps : List FetchStep}
    {a : α} (hk : k output = GitOutput.checked rest output fault)
    (hrest : Takes (rest (Text.decodeLossy output.stdout)) outputs steps a) :
    Takes (git.start args >>= k) (output :: outputs)
      (⟨args, (output.refusal? fault).or output.notText?⟩ :: steps) a := by
  refine takes_start (fun e he => ?_) fun hnone => ?_
  · rw [hk, GitOutput.checked_of_fault rest he]
  · rw [hk, GitOutput.checked_of_no_fault rest hnone]
    exact hrest

namespace GitOutputs

open GitTape

theorem takes_changes (o : GitOutputs) (base head : String) :
    Takes (git.changes base head) [o.version, o.baseCommit, o.headCommit, o.mergeBase, o.diff]
      (o.steps base head) (ChangeSet.ofList (Git.entries (Text.decodeLossy o.diff.stdout))) := by
  unfold Git.changes steps
  refine takes_discard (takes_resolve (takes_resolve (takes_checked rfl ?_)))
  exact takes_checked rfl takes_pure

/-- Finding the changed files is to go through the steps up to the first fault. -/
theorem fetch_eq (o : GitOutputs) (base head : String) :
    o.fetch base head
      = ((FetchStep.firstFault? (o.steps base head)).elim
          (.ok (ChangeSet.ofList (Git.entries (Text.decodeLossy o.diff.stdout)))) .error,
        (FetchStep.taken (o.steps base head)).map FetchStep.args) := by
  obtain ⟨left, hrun⟩ := o.takes_changes base head []
  unfold fetch
  rw [hrun]
  rfl

theorem firstFault?_steps_eq_none_iff (o : GitOutputs) (base head : String) :
    FetchStep.firstFault? (o.steps base head) = none
      ↔ o.baseCommit.success = true ∧ o.headCommit.success = true
        ∧ (o.mergeBase.success = true ∧ ∃ text, Text.decode o.mergeBase.stdout = .ok text)
        ∧ o.diff.success = true ∧ ∃ text, Text.decode o.diff.stdout = .ok text := by
  simp [FetchStep.firstFault?_eq_none_iff, steps, GitOutput.refusal?_eq_none_iff,
    GitOutput.notText?_eq_none_iff]

end GitOutputs

/-! ## The set of changed files -/

namespace GitOutputs

/-- Answers that find `a/b` changed, under two spellings. -/
def twoSpellings : GitOutputs where
  version := { success := false }
  baseCommit := { success := true, stdout := Text.bytes "aaa\n" }
  headCommit := { success := true, stdout := Text.bytes "bbb\n" }
  mergeBase := { success := true, stdout := Text.bytes " ccc\n" }
  diff := { success := true, stdout := Text.bytes "a/b\x00./a/b\x00 \x00" }

end GitOutputs

end PathLabels
