import PathLabels.Cli.Execution
import PathLabels.Proofs.Labelling

/-!
# The exit code of a labelling

Whoever runs the command line learns how it went from a number: 2 if a label could not be added, 1
if nothing was applied, 0 otherwise. The number is settled in two places. Labelling ends with a
fault or with a summary, and a fault means 1; from a summary the number is only read off after the
step output has been written. In between stands a write that may fail, and by then labels may have
been added.

So the law has two sides. As long as the step output can be written, or none is asked for, the
number says what it should. Where it cannot be written the number is 1 whatever became of the
labels, and the last theorem shows a run of that kind.
-/

namespace PathLabels

/-- Adding some label of the decision failed in the end. -/
def Summary.SomeLabelFailed (summary : Summary) : Prop :=
  ∃ report e, summary.report = some report ∧ e ∈ report.failed

theorem Summary.someLabelFailed_iff {summary : Summary} {report : Report}
    (hreport : summary.report = some report) :
    summary.SomeLabelFailed ↔ report.failed ≠ [] := by
  constructor
  · rintro ⟨report', e, hreport', he⟩
    have heq : report' = report := Option.some.inj (hreport'.symm.trans hreport)
    rw [heq] at he
    exact List.ne_nil_of_mem he
  · intro hne
    obtain ⟨e, he⟩ := List.exists_mem_of_ne_nil _ hne
    exact ⟨report, e, hreport, he⟩

theorem Summary.not_someLabelFailed {summary : Summary} (hreport : summary.report = none) :
    ¬ summary.SomeLabelFailed := by
  rintro ⟨report, e, hreport', _⟩
  rw [hreport] at hreport'
  cases hreport'

/-- The file for the step output, if there is to be one, can be written. -/
def World.CanWrite (w : World) (stepOutput : Option String) : Prop :=
  ∀ path, stepOutput = some path → ∃ tree, w.tree.append w.workDir path [] = .ok tree

/-! ## Writing -/

/-- Whether a file can be written does not depend on what is written. -/
theorem FileTree.append_eq_ok_iff (t : FileTree) (place : List String) (path : String)
    (bytes : List UInt8) :
    (∃ tree, t.append place path bytes = .ok tree)
      ↔ ∃ tree, t.append place path [] = .ok tree := by
  unfold FileTree.append
  cases t.target place path with
  | error e => exact Iff.rfl
  | ok target =>
    simp only [bind, Except.bind]
    cases t.get? target with
    | none => exact ⟨fun _ => ⟨_, rfl⟩, fun _ => ⟨_, rfl⟩⟩
    | some found =>
      cases found with
      | file contents => exact ⟨fun _ => ⟨_, rfl⟩, fun _ => ⟨_, rfl⟩⟩
      | directory entries => exact Iff.rfl

theorem World.canWrite_iff_of_files {w w' : World} (h : w'.files = w.files)
    (stepOutput : Option String) : w'.CanWrite stepOutput ↔ w.CanWrite stepOutput := by
  have htree : w'.tree = w.tree := congrArg Prod.fst h
  have hplace : w'.workDir = w.workDir := congrArg Prod.snd h
  unfold World.CanWrite
  rw [htree, hplace]

namespace Cli

/-! ## What is done after labelling -/

section

variable {m : Type → Type} [Monad m]

/-- The labelling that inputs describe. -/
def labelled (host : Host m) (inputs : RunInputs) : m (Except RunError Summary) :=
  match Config.ofInputs inputs with
  | .error e => return .error (.config e)
  | .ok config => config.label host

/-- What is done once labelling has ended. -/
def finish (log : Log) (host : Host m) (stepOutput : Option String) :
    Except RunError Summary → m ExitCode
  | .error e => fail log host e.message e.cause?
  | .ok summary => do
    printLine host summary.decision.labelsText
    match stepOutput with
    | none => conclude log host summary
    | some path =>
      match ← summary.decision.writeOutput host path with
      | .error e => fail log host s!"Failed to write {path}" e.message
      | .ok () => conclude log host summary

theorem label_eq [LawfulMonad m] (log : Log) (host : Host m) (inputs : RunInputs)
    (stepOutput : Option String) :
    label log host inputs stepOutput = labelled host inputs >>= finish log host stepOutput := by
  unfold label labelled
  cases Config.ofInputs inputs with
  | error e =>
    rw [pure_bind]
    rfl
  | ok config =>
    dsimp only
    congr 1

end

/-! ## The code of a summary -/

/-- A code says of a summary whether some label failed. -/
inductive ExitCode.Says (summary : Summary) : ExitCode → Prop where
  | success : ¬ summary.SomeLabelFailed → Says summary .success
  | finding : summary.SomeLabelFailed → Says summary .finding

variable {σ : Type}

theorem says_conclude (log : Log) (host : Host (StateM σ)) {summary : Summary}
    (hreport : ∀ report, summary.report = some report → report.skippedFor ≠ none →
      report.failed = []) (s : σ) :
    ExitCode.Says summary ((conclude log host summary).run s).1 := by
  unfold conclude
  cases hsummary : summary.report with
  | none => exact .success (Summary.not_someLabelFailed hsummary)
  | some report =>
    have hiff := Summary.someLabelFailed_iff hsummary
    dsimp only
    rw [StateM.run_bind]
    by_cases hfailed : report.failed = []
    · rcases report.outcome_of_failed_eq_nil hfailed with h | h | h
      all_goals
        rw [h]
        exact .success fun hsome => hiff.mp hsome hfailed
    · -- a run that was skipped would have no failed label
      have hskip : report.skippedFor = none :=
        Decidable.byContradiction fun h => hfailed (hreport report hsummary h)
      rcases report.outcome_of_failed_ne_nil hskip hfailed with h | h
      all_goals
        rw [h]
        exact .finding (hiff.mpr hfailed)

/-! ## What is known of labelling -/

theorem labelled_eq_of_ok (host : Host (StateM σ)) {inputs : RunInputs} {config : Config}
    (h : Config.ofInputs inputs = .ok config) : labelled host inputs = config.label host := by
  unfold labelled
  rw [h]

theorem run_labelled_of_error (host : Host (StateM σ)) {inputs : RunInputs} {e : ConfigError}
    (h : Config.ofInputs inputs = .error e) (s : σ) :
    (labelled host inputs).run s = (.error (.config e), s) := by
  unfold labelled
  rw [h]
  rfl

/-- Labelling changes no file. -/
theorem files_labelled (inputs : RunInputs) (w : World) :
    ((labelled World.host inputs).run w).2.files = w.files := by
  cases hconfig : Config.ofInputs inputs with
  | error e => rw [run_labelled_of_error World.host hconfig w]
  | ok config =>
    rw [labelled_eq_of_ok World.host hconfig]
    exact (config.labelling World.host w).allows (E := .keeping World.files)
      (World.bounds_readFile _) World.files_runGit World.files_network

/-- A labelling that ends with a fault has sent nothing. -/
theorem requests_labelled_of_error {inputs : RunInputs} {w : World} {e : RunError}
    (h : ((labelled World.host inputs).run w).1 = .error e) :
    ((labelled World.host inputs).run w).2.requests = w.requests := by
  cases hconfig : Config.ofInputs inputs with
  | error e => rw [run_labelled_of_error World.host hconfig w]
  | ok config =>
    rw [labelled_eq_of_ok World.host hconfig] at h ⊢
    have hlabelling := config.labelling World.host w
    rw [h] at hlabelling
    exact hlabelling.allows_of_error (E := .keeping World.requests)
      (World.bounds_readFile _) World.requests_runGit

/-- After an empty decision and after a run that was skipped no label has failed. -/
theorem failed_eq_nil_of_labelled {host : Host (StateM σ)} {inputs : RunInputs} {s : σ}
    {summary : Summary} (h : ((labelled host inputs).run s).1 = .ok summary) {report : Report}
    (hreport : summary.report = some report)
    (hnothing : summary.decision.labels = [] ∨ report.skippedFor ≠ none) : report.failed = [] := by
  cases hconfig : Config.ofInputs inputs with
  | error e =>
    rw [run_labelled_of_error host hconfig s] at h
    cases h
  | ok config =>
    rw [labelled_eq_of_ok host hconfig] at h
    have hlabelling := config.labelling host s
    rw [h] at hlabelling
    obtain ⟨table, course, hfits, rfl⟩ := hlabelling.exists_course hreport
    exact Application.failed_eq_nil hfits hnothing

/-! ## What is done after labelling sends nothing -/

section

open Evolution

variable {E : Evolution World} (hlog : ∀ line, E.Bounds (World.host.logError line))
include hlog

theorem bounds_error (log : Log) (message : String) (values : List (String × String)) :
    E.Bounds (log.error World.host message values) := by
  unfold Log.error
  split
  · exact hlog _
  · exact bounds_pure _

theorem bounds_conclude (log : Log) (summary : Summary) :
    E.Bounds (conclude log World.host summary) := by
  unfold conclude
  cases summary.report with
  | none => exact bounds_pure _
  | some report =>
    refine Bounds.bind (Bounds.forM (fun e => bounds_error hlog log _ _) _) fun _ => ?_
    cases report.outcome <;> exact bounds_pure _

theorem bounds_finish (hprint : ∀ text, E.Bounds (World.host.print text))
    (happend : ∀ path bytes, E.Bounds (World.host.appendFile path bytes)) (log : Log)
    (stepOutput : Option String) (result : Except RunError Summary) :
    E.Bounds (finish log World.host stepOutput result) := by
  unfold finish
  cases result with
  | error e => exact (bounds_error hlog log _ _).bind fun _ => bounds_pure _
  | ok summary =>
    refine Bounds.bind (hprint _) fun _ => ?_
    cases stepOutput with
    | none => exact bounds_conclude hlog log summary
    | some path =>
      refine Bounds.bind (happend path _) fun written => ?_
      cases written with
      | error e => exact (bounds_error hlog log _ _).bind fun _ => bounds_pure _
      | ok _ => exact bounds_conclude hlog log summary

end

theorem requests_appendFile (path : String) (bytes : List UInt8) :
    (Evolution.keeping World.requests).Bounds (World.host.appendFile path bytes) := by
  intro w
  show (w.appendFile path bytes).2.requests = w.requests
  unfold World.appendFile
  split
  · rfl
  · rfl

theorem requests_finish (log : Log) (stepOutput : Option String)
    (result : Except RunError Summary) (w : World) :
    ((finish log World.host stepOutput result).run w).2.requests = w.requests :=
  bounds_finish (E := .keeping World.requests) (fun _ _ => rfl) (fun _ _ => rfl)
    requests_appendFile log stepOutput result w

/-! ## The law -/

theorem finish_error (log : Log) (stepOutput : Option String) (e : RunError) (w : World) :
    ((finish log World.host stepOutput (.error e)).run w).1 = .failure := rfl

theorem run_finish_none (log : Log) (summary : Summary) (w : World) :
    ∃ w' : World, (finish log World.host none (.ok summary)).run w
      = (conclude log World.host summary).run w' := ⟨_, rfl⟩

/-- With a step output to write, the write decides how it goes on. -/
theorem run_finish_some (log : Log) (path : String) (summary : Summary) (w : World) :
    ∃ w' : World, (finish log World.host (some path) (.ok summary)).run w
      = match w.tree.append w.workDir path (Text.bytes summary.decision.outputLine) with
        | .error e => (fail log World.host s!"Failed to write {path}" e.message).run w'
        | .ok tree => (conclude log World.host summary).run { w' with tree } := by
  let w' : World := { w with printed := w.printed ++ (summary.decision.labelsText ++ "\n") }
  refine ⟨w', ?_⟩
  have hprint : (printLine World.host summary.decision.labelsText).run w = ((), w') := rfl
  have hwrite : (summary.decision.writeOutput World.host path).run w'
      = w'.appendFile path (Text.bytes summary.decision.outputLine) := rfl
  -- printing has left the files alone, so it is the old tree that is written to
  have hfiles : w'.tree.append w'.workDir path = w.tree.append w.workDir path := rfl
  unfold finish
  simp only [StateM.run_bind, hprint, hwrite, World.appendFile, hfiles]
  cases w.tree.append w.workDir path (Text.bytes summary.decision.outputLine) with
  | error e => rfl
  | ok tree => rfl

/-- A step output that can be written does not keep the code from saying what became of the
labels. -/
theorem says_finish (log : Log) {stepOutput : Option String} {w : World}
    (hwrite : w.CanWrite stepOutput) {summary : Summary}
    (hreport : ∀ report, summary.report = some report → report.skippedFor ≠ none →
      report.failed = []) :
    ExitCode.Says summary ((finish log World.host stepOutput (.ok summary)).run w).1 := by
  cases stepOutput with
  | none =>
    obtain ⟨w', hrun⟩ := run_finish_none log summary w
    rw [hrun]
    exact says_conclude log World.host hreport w'
  | some path =>
    obtain ⟨w', hrun⟩ := run_finish_some log path summary w
    obtain ⟨tree, htree⟩ := (w.tree.append_eq_ok_iff w.workDir path
      (Text.bytes summary.decision.outputLine)).mpr (hwrite path rfl)
    rw [htree] at hrun
    rw [hrun]
    exact says_conclude log World.host hreport _

/-- A step output that cannot be written makes the code 1, whatever became of the labels. -/
theorem finish_of_not_canWrite (log : Log) {stepOutput : Option String} {w : World}
    (hwrite : ¬ w.CanWrite stepOutput) (result : Except RunError Summary) :
    ((finish log World.host stepOutput result).run w).1 = .failure := by
  cases result with
  | error e => exact finish_error log stepOutput e w
  | ok summary =>
    cases stepOutput with
    | none => exact absurd (fun _ h => by cases h) hwrite
    | some path =>
      obtain ⟨w', hrun⟩ := run_finish_some log path summary w
      cases happend : w.tree.append w.workDir path (Text.bytes summary.decision.outputLine) with
      | error e =>
        rw [happend] at hrun
        rw [hrun]
        rfl
      | ok tree =>
        have hcan : w.CanWrite (some path) := by
          intro path' heq
          cases heq
          exact (w.tree.append_eq_ok_iff w.workDir path _).mp ⟨tree, happend⟩
        exact absurd hcan hwrite

variable {environment : String → Option String} {args : List String} {format : LogFormat}
  {inputs : RunInputs} {stepOutput : Option String}

/-- A command line that asks for labelling has the labels added, and then finishes. -/
theorem run_of_label
    (hparse : Invocation.parse environment args = .ok ⟨format, .label inputs stepOutput⟩)
    (w : World) :
    let log : Log := ⟨format, showsErrors (environment "RUST_LOG")⟩
    let labelling := (labelled World.host inputs).run w
    (run World.host environment args).run w
      = (finish log World.host stepOutput labelling.1).run labelling.2 := by
  intro log labelling
  have hrun : run World.host environment args = label log World.host inputs stepOutput := by
    unfold run
    rw [hparse]
    rfl
  rw [hrun, label_eq, StateM.run_bind]

/--
**The exit code of a labelling**, for every command line that asks for one, and whatever the files,
git and the network hold.

If the step output can be written, or none is asked for, the code is 2 exactly if some label of the
decision failed in the end, 1 exactly if labelling ended with a fault, and 0 otherwise; in
particular it is 0 after an empty decision and after a run that was skipped. If the step output
cannot be written, the code is 1. In either case a labelling that ended with a fault has sent no
request, and what is done after labelling sends none.
-/
theorem run_exitCode
    (hparse : Invocation.parse environment args = .ok ⟨format, .label inputs stepOutput⟩)
    (w : World) :
    let labelling := (labelled World.host inputs).run w
    let ran := (run World.host environment args).run w
    (w.CanWrite stepOutput →
        (ran.1 = .finding ↔ ∃ summary, labelling.1 = .ok summary ∧ summary.SomeLabelFailed)
          ∧ (ran.1 = .failure ↔ ∃ e, labelling.1 = .error e)
          ∧ (ran.1 = .success ↔ ∃ summary, labelling.1 = .ok summary ∧ ¬ summary.SomeLabelFailed)
          ∧ ∀ summary report, labelling.1 = .ok summary → summary.report = some report →
              summary.decision.labels = [] ∨ report.skippedFor ≠ none → ran.1 = .success)
      ∧ (¬ w.CanWrite stepOutput → ran.1 = .failure)
      ∧ (∀ e, labelling.1 = .error e → ran.2.requests = w.requests)
      ∧ ran.2.requests = labelling.2.requests := by
  intro labelling ran
  have hran : ran = (finish ⟨format, showsErrors (environment "RUST_LOG")⟩ World.host stepOutput
      labelling.1).run labelling.2 := run_of_label hparse w
  have hfiles : labelling.2.CanWrite stepOutput ↔ w.CanWrite stepOutput :=
    World.canWrite_iff_of_files (files_labelled inputs w) stepOutput
  have hrequests : ran.2.requests = labelling.2.requests := by
    rw [hran]
    exact requests_finish _ stepOutput labelling.1 labelling.2
  refine ⟨fun hwrite => ?_, fun hwrite => ?_, fun e he => ?_, hrequests⟩
  · cases hresult : labelling.1 with
    | error e =>
      have hcode : ran.1 = .failure := by
        rw [hran, hresult]
        exact finish_error _ stepOutput e labelling.2
      simp [hcode]
    | ok summary =>
      have hsays : ExitCode.Says summary ran.1 := by
        rw [hran, hresult]
        exact says_finish _ (hfiles.mpr hwrite) fun report hreport hskip =>
          failed_eq_nil_of_labelled hresult hreport (Or.inr hskip)
      generalize ran.1 = code at hsays
      cases hsays with
      | success hnone => simp [hnone]
      | finding hsome =>
        refine ⟨by simp [hsome], by simp, by simp [hsome], ?_⟩
        intro summary' report heq hreport hnothing
        cases heq
        exact absurd (failed_eq_nil_of_labelled hresult hreport hnothing)
          ((Summary.someLabelFailed_iff hreport).mp hsome)
  · rw [hran]
    exact finish_of_not_canWrite _ (fun h => hwrite (hfiles.mp h)) labelling.1
  · rw [hrequests]
    exact requests_labelled_of_error he

/-! ## A step output in a directory that is not there -/

/-- A checkout with a table of one rule, and a pull request that changes one file, which the rule
owns. Besides the table there are only the given directories. -/
def oneRule (directories : List String) (responses : List Http.Response) : World where
  tree := .directory
    (("autolabel.toml", .file (Text.bytes "[[rules]]\nlabel='t'\ndirs=['a']"))
      :: directories.map fun name => (name, .empty))
  git := {
    baseCommit := { output := ⟨true, Text.bytes "aaa\n", []⟩ }
    headCommit := { output := ⟨true, Text.bytes "bbb\n", []⟩ }
    mergeBase := { output := ⟨true, Text.bytes "ccc\n", []⟩ }
    diff := { output := ⟨true, Text.bytes "a/b\x00", []⟩ } }
  network := { replies := responses.map fun r => ⟨some r, .zero⟩ }

/-- A command line that asks for a step output in the directory `no`. -/
def labelArgs (apiUrl : String) : List String :=
  ["run", "--pr", "12", "--repository", "o/r", "--token", "tok", "--api-url", apiUrl,
    "--github-output", "no/out"]

/-- What the command line asks for. -/
def labelInputs (apiUrl : String) : RunInputs where
  pr := some 12
  rulesPath := some Config.defaultRulesPath
  repoDir := some Config.defaultRepoDir
  baseRef := some Config.defaultBaseRef
  headRef := some Config.defaultHeadRef
  repository := some "o/r"
  token := some "tok"
  apiUrl := some apiUrl

theorem eq_ok_of_toOption {ε α : Type} {x : Except ε α} {a : α} (h : x.toOption = some a) :
    x = .ok a := by
  cases x with
  | error e => cases h
  | ok b => exact congrArg Except.ok (Option.some.inj h)

theorem someLabelFailed_of_hasFailures {result : Except RunError Summary}
    (h : result.toOption.any Summary.hasFailures = true) :
    ∃ summary, result = .ok summary ∧ summary.SomeLabelFailed := by
  cases result with
  | error e => cases h
  | ok summary =>
    have hany : summary.report.any Report.hasFailures = true := h
    obtain ⟨report, hreport, hfailures⟩ := (Option.any_eq_true _ _).mp hany
    refine ⟨summary, rfl, (Summary.someLabelFailed_iff hreport).mpr fun hnil => ?_⟩
    rw [Report.hasFailures, hnil] at hfailures
    cases hfailures

theorem canWrite_oneRule (responses : List Http.Response) :
    (oneRule ["no"] responses).CanWrite (some "no/out") := by
  intro path h
  cases h
  exact ⟨_, rfl⟩

theorem not_canWrite_oneRule (responses : List Http.Response) :
    ¬ (oneRule [] responses).CanWrite (some "no/out") := by
  intro h
  obtain ⟨tree, htree⟩ := h "no/out" rfl
  cases htree

/-- A server without the label refuses it: the code is 2 where the step output can be written, and 1
where it cannot, although the request to add the label has been sent. -/
theorem run_exitCode_refused :
    let responses : List Http.Response := [{ body := Text.bytes "[]" }, { status := 422 }]
    let ran := fun directories => (run World.host (fun _ => none) (labelArgs "http://h")).run
      (oneRule directories responses)
    Invocation.parse (fun _ => none) (labelArgs "http://h")
        = .ok ⟨.text, .label (labelInputs "http://h") (some "no/out")⟩
      ∧ (ran ["no"]).1 = .finding ∧ (ran []).1 = .failure
      ∧ (ran []).2.requests.any (fun
          | .request r => r.method == .post
          | .git _ => false) = true := by
  intro responses ran
  have hparse : Invocation.parse (fun _ => none) (labelArgs "http://h")
      = .ok ⟨.text, .label (labelInputs "http://h") (some "no/out")⟩ :=
    eq_ok_of_toOption (by decide +kernel)
  obtain ⟨hwritten, _⟩ := run_exitCode hparse (oneRule ["no"] responses)
  obtain ⟨_, hunwritten, _, hrequests⟩ := run_exitCode hparse (oneRule [] responses)
  refine ⟨hparse, ?_, hunwritten (not_canWrite_oneRule responses), ?_⟩
  · exact (hwritten (canWrite_oneRule responses)).1.mpr
      (someLabelFailed_of_hasFailures (by decide +kernel))
  · show (World.requests _).any _ = true
    rw [hrequests]
    decide +kernel

/-- With an address that is none, the label cannot be added, and the code should be 2. But the step
output cannot be written, and the code is 1. -/
theorem run_exitCode_hides_failed_label :
    let w := oneRule [] []
    let labelling := (labelled World.host (labelInputs "nowhere")).run w
    let ran := (run World.host (fun _ => none) (labelArgs "nowhere")).run w
    Invocation.parse (fun _ => none) (labelArgs "nowhere")
        = .ok ⟨.text, .label (labelInputs "nowhere") (some "no/out")⟩
      ∧ (∃ summary, labelling.1 = .ok summary ∧ summary.SomeLabelFailed)
      ∧ ran.1 = .failure
      ∧ ¬ (ran.1 = .finding ↔ ∃ summary, labelling.1 = .ok summary ∧ summary.SomeLabelFailed) := by
  intro w labelling ran
  have hparse : Invocation.parse (fun _ => none) (labelArgs "nowhere")
      = .ok ⟨.text, .label (labelInputs "nowhere") (some "no/out")⟩ :=
    eq_ok_of_toOption (by decide +kernel)
  have hfailed : ∃ summary, labelling.1 = .ok summary ∧ summary.SomeLabelFailed :=
    someLabelFailed_of_hasFailures (by decide +kernel)
  have hcode : ran.1 = .failure := by
    have hran : ran = (finish _ World.host (some "no/out") labelling.1).run labelling.2 :=
      run_of_label hparse w
    have hfiles : labelling.2.CanWrite (some "no/out") ↔ w.CanWrite (some "no/out") :=
      World.canWrite_iff_of_files (files_labelled (labelInputs "nowhere") w) _
    rw [hran]
    exact finish_of_not_canWrite _ (fun h => not_canWrite_oneRule [] (hfiles.mp h)) _
  refine ⟨hparse, hfailed, hcode, fun h => ?_⟩
  have hfinding : ran.1 = .finding := h.mpr hfailed
  rw [hcode] at hfinding
  cases hfinding

end Cli

end PathLabels
