import PathLabels.Git.Script
import PathLabels.Proofs.Evolution

/-!
# A git that does not start

Git may be there at one query and gone at the next. Finding the changed files is told here as a
conversation: a query, and what follows from its answer, which is the next query or the end. Every
run of the program goes through the queries that it reaches and ends at the last of them.

Where git does not start, most queries say so. The two that resolve a reference blame the reference,
and what is wrong with git is left to the text of the fault.
-/

namespace PathLabels.Git

/-! ## The conversation -/

/-- What git is asked next, with what it has said so far. -/
inductive Query where
  | version
  | base
  | head (baseCommit : String)
  | mergeBase (baseCommit headCommit : String)
  | diff (ancestor headCommit : String)

/-- What follows from an answer. -/
inductive Next where
  | ask (query : Query)
  | finish (result : Except FetchError ChangeSet)

/-- What follows from an output that names a commit. -/
def Next.ofCommit (output : GitOutput) (fault : String → FetchError) (query : String → Query) :
    Next :=
  if output.success then .ask (query (trimmed output.stdout))
  else .finish (.error (fault (trimmed output.stderr)))

/-- What follows from an output that has to be text. -/
def Next.ofText (output : GitOutput) (fault : FetchError) (next : String → Next) : Next :=
  if output.success then
    match textOf output.stdout with
    | .ok text => next text
    | .error e => .finish (.error e)
  else .finish (.error fault)

namespace Query

section

variable (base head : String)

/-- What git is asked for. -/
def args : Query → List String
  | .version => ["--version"]
  | .base => ["rev-parse", "--verify", "--quiet", commitOf base]
  | .head _ => ["rev-parse", "--verify", "--quiet", commitOf head]
  | .mergeBase baseCommit headCommit => ["merge-base", baseCommit, headCommit]
  | .diff ancestor headCommit =>
    ["diff", "--name-only", "--no-renames", "-z", ancestor, headCommit]

/-- The fault if git does not start. -/
def unstarted : Query → IoError → FetchError
  | .base, e => .baseUnresolvable base (FetchError.gitUnavailable e).message
  | .head _, e => .headUnresolvable head (FetchError.gitUnavailable e).message
  | _, e => .gitUnavailable e

/-- What follows if git starts. How the first run ends makes no difference. -/
def answered (query : Query) (output : GitOutput) : Next :=
  match query with
  | .version => .ask .base
  | .base => .ofCommit output (.baseUnresolvable base) .head
  | .head baseCommit => .ofCommit output (.headUnresolvable head) (.mergeBase baseCommit)
  | .mergeBase _ headCommit =>
    .ofText output (.noMergeBase base head) fun text => .ask (.diff (Text.trim text) headCommit)
  | .diff _ _ =>
    .ofText output (.diffFailed (trimmed output.stderr)) fun text =>
      .finish (.ok (ChangeSet.ofList (entries text)))

/-- What follows. -/
def next (query : Query) : Except IoError GitOutput → Next
  | .ok output => query.answered base head output
  | .error e => .finish (.error (query.unstarted base head e))

end

/-- Whether a query resolves a reference. -/
def Resolves : Query → Prop
  | .base => True
  | .head _ => True
  | _ => False

/-- How many queries there may still be after this one. -/
def left : Query → Nat
  | .version => 4
  | .base => 3
  | .head _ => 2
  | .mergeBase _ _ => 1
  | .diff _ _ => 0

end Query

section

variable {m : Type → Type} [Monad m]

/-- Finding the changed files from the last query on. -/
def changesByDiff (git : Git m) (ancestor headCommit : String) :
    ExceptT FetchError m ChangeSet := do
  let diff ← git.start ["diff", "--name-only", "--no-renames", "-z", ancestor, headCommit]
  if !diff.success then throw (.diffFailed (trimmed diff.stderr))
  return ChangeSet.ofList (entries (← changes.liftExcept (textOf diff.stdout)))

/-- Finding the changed files once both commits are known. -/
def changesOfCommits (git : Git m) (base head baseCommit headCommit : String) :
    ExceptT FetchError m ChangeSet := do
  let found ← git.start ["merge-base", baseCommit, headCommit]
  if !found.success then throw (.noMergeBase base head)
  let ancestor := Text.trim (← changes.liftExcept (textOf found.stdout))
  git.changesByDiff ancestor headCommit

/-- Finding the changed files from a query on. -/
def changesFrom (git : Git m) (base head : String) : Query → ExceptT FetchError m ChangeSet
  | .version => git.changes base head
  | .base => do
    let baseCommit ← git.resolve (.baseUnresolvable base) base
    let headCommit ← git.resolve (.headUnresolvable head) head
    git.changesOfCommits base head baseCommit headCommit
  | .head baseCommit => do
    let headCommit ← git.resolve (.headUnresolvable head) head
    git.changesOfCommits base head baseCommit headCommit
  | .mergeBase baseCommit headCommit => git.changesOfCommits base head baseCommit headCommit
  | .diff ancestor headCommit => git.changesByDiff ancestor headCommit

/-- What is left to do when it is known what follows. -/
def follow (git : Git m) (base head : String) : Next → ExceptT FetchError m ChangeSet
  | .ask query => git.changesFrom base head query
  | .finish result => ExceptT.mk (pure result)

end

/-! ## One query -/

section

variable {σ α : Type} (git : Git (StateM σ))

theorem run_ask_bind (args : List String)
    (k : Except IoError GitOutput → ExceptT FetchError (StateM σ) α) (s : σ) :
    ((liftM (git.run args) : ExceptT FetchError (StateM σ) _) >>= k).run.run s
      = (k ((git.run args).run s).1).run.run ((git.run args).run s).2 := by
  rw [ExceptT.run_bind, ExceptT.run_liftM, bind_map_left, StateM.run_bind]

/-- A query whose answer is dropped. -/
theorem run_discard_bind (base head : String) (args : List String) (query : Query) (s : σ) :
    let ran := (git.run args).run s
    (discard (git.start args) >>= fun _ => git.changesFrom base head query).run.run s
      = (git.follow base head
          (match ran.1 with
          | .ok _ => .ask query
          | .error e => .finish (.error (.gitUnavailable e)))).run.run ran.2 := by
  intro ran
  show ((fun _ => ()) <$> git.start args >>= fun _ => git.changesFrom base head query).run.run s = _
  rw [bind_map_left, start, bind_assoc, run_ask_bind]
  cases ran.1 <;> rfl

/-- A query that resolves a reference. -/
theorem run_resolve_bind (base head : String) (fault : String → FetchError) (reference : String)
    (query : String → Query) (s : σ) :
    let ran := (git.run ["rev-parse", "--verify", "--quiet", commitOf reference]).run s
    (git.resolve fault reference >>= fun commit =>
        git.changesFrom base head (query commit)).run.run s
      = (git.follow base head
          (match ran.1 with
          | .ok output => .ofCommit output fault query
          | .error e => .finish (.error (fault (FetchError.gitUnavailable e).message)))).run.run
          ran.2 := by
  intro ran
  rw [resolve, bind_assoc, run_ask_bind]
  cases ran.1 with
  | error e => rfl
  | ok output =>
    dsimp only [Next.ofCommit]
    cases output.success <;> rfl

/-- A query whose answer has to be text. -/
theorem run_text_bind (base head : String) (args : List String) (fault : GitOutput → FetchError)
    (next : String → Next) (s : σ) :
    let ran := (git.run args).run s
    (do let output ← git.start args
        if !output.success then throw (fault output)
        git.follow base head (next (← changes.liftExcept (textOf output.stdout)))).run.run s
      = (git.follow base head
          (match ran.1 with
          | .ok output => .ofText output (fault output) next
          | .error e => .finish (.error (.gitUnavailable e)))).run.run ran.2 := by
  intro ran
  rw [start, bind_assoc, run_ask_bind]
  cases ran.1 with
  | error e => rfl
  | ok output =>
    dsimp only [Next.ofText]
    rw [pure_bind]
    cases output.success with
    | false => rfl
    | true => cases textOf output.stdout <;> rfl

/-- The program does with an answer what follows from it. -/
theorem run_changesFrom (base head : String) (query : Query) (s : σ) :
    let ran := (git.run (query.args base head)).run s
    (git.changesFrom base head query).run.run s
      = (git.follow base head (query.next base head ran.1)).run.run ran.2 := by
  cases query with
  | version => exact git.run_discard_bind base head _ .base s
  | base => exact git.run_resolve_bind base head _ base .head s
  | head baseCommit => exact git.run_resolve_bind base head _ head (.mergeBase baseCommit) s
  | mergeBase baseCommit headCommit =>
    exact git.run_text_bind base head _ (fun _ => .noMergeBase base head)
      (fun text => .ask (.diff (Text.trim text) headCommit)) s
  | diff ancestor headCommit =>
    exact git.run_text_bind base head _ (fun output => .diffFailed (trimmed output.stderr))
      (fun text => .finish (.ok (ChangeSet.ofList (entries text)))) s

end

/-! ## The whole conversation -/

section

variable {σ : Type} {git : Git (StateM σ)} {base head : String} {s₀ s s' : σ} {query query' : Query}

/-- From the state at the beginning a query is reached in a state: git has started at every earlier
query, and what it said there was good enough to go on. -/
inductive Reaches (git : Git (StateM σ)) (base head : String) (s₀ : σ) : Query → σ → Prop
  | start : Reaches git base head s₀ .version s₀
  | step {query query' : Query} {s s' : σ} {output : GitOutput}
      (earlier : Reaches git base head s₀ query s)
      (started : (git.run (query.args base head)).run s = (.ok output, s'))
      (good : query.answered base head output = .ask query') :
      Reaches git base head s₀ query' s'

/-- What the program does from the beginning it does from every query that it reaches. -/
theorem Reaches.run_changes (h : git.Reaches base head s₀ query s) :
    (git.changes base head).run.run s₀ = (git.changesFrom base head query).run.run s := by
  induction h with
  | start => rfl
  | step _ started good ih =>
    rw [ih, run_changesFrom, started, Query.next, good]
    rfl

/-- Where git does not start the run ends. -/
theorem Reaches.run_changes_of_error {e : IoError} (h : git.Reaches base head s₀ query s)
    (hrun : (git.run (query.args base head)).run s = (.error e, s')) :
    (git.changes base head).run.run s₀ = (.error (query.unstarted base head e), s') := by
  rw [h.run_changes, run_changesFrom, hrun]
  rfl

theorem Query.left_lt {output : GitOutput} (h : query.answered base head output = .ask query') :
    query'.left < query.left := by
  cases query <;> grind [Query.answered, Next.ofCommit, Next.ofText, Query.left]

/-- Every run ends at a query that it reaches. -/
theorem Reaches.exists_end (h : git.Reaches base head s₀ query s) :
    ∃ query s answer s' result, git.Reaches base head s₀ query s
      ∧ (git.run (query.args base head)).run s = (answer, s')
      ∧ query.next base head answer = .finish result
      ∧ (git.changes base head).run.run s₀ = (result, s') := by
  -- every answer that does not end the run leaves fewer queries
  induction hleft : query.left using Nat.strongRecOn generalizing query s with | _ n ih
  rcases hrun : (git.run (query.args base head)).run s with ⟨answer, s'⟩
  cases hnext : query.next base head answer with
  | finish result =>
    refine ⟨query, s, answer, s', result, h, hrun, hnext, ?_⟩
    rw [h.run_changes, run_changesFrom, hrun, hnext]
    rfl
  | ask query' =>
    cases answer with
    | error e => cases hnext
    | ok output =>
      exact ih query'.left (hleft ▸ Query.left_lt hnext) (h.step hrun hnext) rfl

theorem Query.unstarted_eq_iff {e e' : IoError} :
    query.unstarted base head e' = .gitUnavailable e ↔ e' = e ∧ ¬ query.Resolves := by
  cases query <;> simp [Query.unstarted, Query.Resolves]

/-- Whatever is blamed, the fault says last that git does not start. -/
theorem Query.message_unstarted (e : IoError) :
    ∃ front, (query.unstarted base head e).message
      = front ++ (FetchError.gitUnavailable e).message := by
  cases query with
  | base => exact ⟨_, rfl⟩
  | head baseCommit => exact ⟨_, rfl⟩
  | version => exact ⟨"", rfl⟩
  | mergeBase baseCommit headCommit => exact ⟨"", rfl⟩
  | diff ancestor headCommit => exact ⟨"", rfl⟩

theorem textOf_ne_gitUnavailable (bytes : List UInt8) (e : IoError) :
    textOf bytes ≠ .error (.gitUnavailable e) := by
  rw [textOf]
  cases Text.decode bytes <;> nofun

/-- A git that starts is never reported as one that does not. -/
theorem Query.answered_ne_gitUnavailable (output : GitOutput) (e : IoError) :
    query.answered base head output ≠ .finish (.error (.gitUnavailable e)) := by
  have htext := textOf_ne_gitUnavailable output.stdout e
  cases query <;> grind [Query.answered, Next.ofCommit, Next.ofText]

end

/--
**What is reported of a git that does not start**, for every git and every way in which it has
answered before.

The run ends at the query at which git does not start. Where no reference is resolved the fault is
that git is unavailable, and so it is only there. Where a reference is resolved the fault is that of
the reference, with the other one as its reason. The text of the fault says in any case what is
wrong with git.
-/
theorem changes_unstarted {σ : Type} (git : Git (StateM σ)) (base head : String) (s₀ : σ) :
    (∀ query s e s', git.Reaches base head s₀ query s →
        (git.run (query.args base head)).run s = (.error e, s') →
        (git.changes base head).run.run s₀ = (.error (query.unstarted base head e), s')
          ∧ (query.unstarted base head e = .gitUnavailable e ↔ ¬ query.Resolves)
          ∧ ∃ front, (query.unstarted base head e).message
              = front ++ (FetchError.gitUnavailable e).message)
      ∧ ∀ e s', (git.changes base head).run.run s₀ = (.error (.gitUnavailable e), s')
          ↔ ∃ query s, git.Reaches base head s₀ query s
            ∧ (git.run (query.args base head)).run s = (.error e, s') ∧ ¬ query.Resolves := by
  refine ⟨fun query s e s' hreach hrun => ?_, fun e s' => ⟨fun hresult => ?_, ?_⟩⟩
  · exact ⟨hreach.run_changes_of_error hrun, Query.unstarted_eq_iff.trans (and_iff_right rfl),
      Query.message_unstarted e⟩
  · obtain ⟨query, s, answer, s₁, result, hreach, hrun, hnext, hend⟩ :=
      (Reaches.start : git.Reaches base head s₀ .version s₀).exists_end
    rw [hend] at hresult
    cases hresult
    cases answer with
    | ok output => exact absurd hnext (Query.answered_ne_gitUnavailable output e)
    | error e' =>
      rw [Query.next, Next.finish.injEq, Except.error.injEq, Query.unstarted_eq_iff] at hnext
      obtain ⟨rfl, hresolves⟩ := hnext
      exact ⟨query, s, hreach, hrun, hresolves⟩
  · rintro ⟨query, s, hreach, hrun, hresolves⟩
    rw [hreach.run_changes_of_error hrun, Query.unstarted_eq_iff.mpr ⟨rfl, hresolves⟩]

theorem message_gitUnavailable_notFound : (FetchError.gitUnavailable .notFound).message
    = "failed to run git: No such file or directory (os error 2)" := by
  decide +kernel

/-- The checkout goes away while the base is resolved. -/
def goneAtBase : GitScript where
  version := { output := { success := false } }
  baseCommit :=
    { output := { success := true, stdout := Text.bytes "aaa\n" }, removesCheckout := true }

/-- The checkout goes away while the head is resolved. -/
def goneAtHead : GitScript where
  baseCommit := { output := { success := true, stdout := Text.bytes "aaa\n" } }
  headCommit :=
    { output := { success := true, stdout := Text.bytes "bbb\n" }, removesCheckout := true }

/-- The head is blamed if git is gone before it is resolved. After that there is no reference left
to blame. -/
theorem changes_unstarted_gone :
    (∃ s, Reaches GitScript.git "main" "HEAD" goneAtBase (.head "aaa") s
        ∧ (GitScript.git.run ((Query.head "aaa").args "main" "HEAD")).run s = (.error .notFound, s)
        ∧ (GitScript.git.changes "main" "HEAD").run.run goneAtBase
          = (.error (.headUnresolvable "HEAD"
              "failed to run git: No such file or directory (os error 2)"), s))
      ∧ ∃ s, Reaches GitScript.git "main" "HEAD" goneAtHead (.mergeBase "aaa" "bbb") s
        ∧ (GitScript.git.run ((Query.mergeBase "aaa" "bbb").args "main" "HEAD")).run s
          = (.error .notFound, s)
        ∧ (GitScript.git.changes "main" "HEAD").run.run goneAtHead
          = (.error (.gitUnavailable .notFound), s) := by
  have haaa : trimmed (Text.bytes "aaa\n") = "aaa" := by decide +kernel
  have hbbb : trimmed (Text.bytes "bbb\n") = "bbb" := by decide +kernel
  constructor
  · have hreach : Reaches GitScript.git "main" "HEAD" goneAtBase (.head "aaa")
        { goneAtBase with
          hasCheckout := false
          calls := [["--version"], ["rev-parse", "--verify", "--quiet", commitOf "main"]] } :=
      .step (.step .start rfl rfl) rfl (congrArg (fun commit => Next.ask (.head commit)) haaa)
    obtain ⟨hresult, -⟩ := (changes_unstarted _ _ _ _).1 _ _ _ _ hreach rfl
    exact ⟨_, hreach, rfl, message_gitUnavailable_notFound ▸ hresult⟩
  · have hreach : Reaches GitScript.git "main" "HEAD" goneAtHead (.mergeBase "aaa" "bbb")
        { goneAtHead with
          hasCheckout := false
          calls := [["--version"], ["rev-parse", "--verify", "--quiet", commitOf "main"],
            ["rev-parse", "--verify", "--quiet", commitOf "HEAD"]] } :=
      .step (.step (.step .start rfl rfl) rfl
          (congrArg (fun commit => Next.ask (.head commit)) haaa)) rfl
        (congrArg (fun commit => Next.ask (.mergeBase "aaa" commit)) hbbb)
    obtain ⟨hresult, -⟩ := (changes_unstarted _ _ _ _).1 _ _ _ _ hreach rfl
    exact ⟨_, hreach, rfl, hresult⟩

/-- Git has started once, is gone before the base is resolved, and the base is blamed. -/
theorem changes_blames_reference :
    let script : GitScript := { version := { removesCheckout := true } }
    ∃ s, Reaches GitScript.git "main" "HEAD" script .base s
      ∧ (GitScript.git.run (Query.base.args "main" "HEAD")).run s = (.error .notFound, s)
      ∧ ((GitScript.git.changes "main" "HEAD").run.run script).1
        = .error (.baseUnresolvable "main"
            "failed to run git: No such file or directory (os error 2)")
      ∧ ∀ e, ((GitScript.git.changes "main" "HEAD").run.run script).1
        ≠ .error (.gitUnavailable e) := by
  intro script
  have hreach : Reaches GitScript.git "main" "HEAD" script .base
      { script with hasCheckout := false, calls := [["--version"]] } := .step .start rfl rfl
  have hresult : ((GitScript.git.changes "main" "HEAD").run.run script).1
      = .error (.baseUnresolvable "main"
          "failed to run git: No such file or directory (os error 2)") := by
    rw [hreach.run_changes_of_error rfl, Query.unstarted, message_gitUnavailable_notFound]
  refine ⟨_, hreach, rfl, hresult, fun e => ?_⟩
  rw [hresult]
  nofun

end PathLabels.Git
