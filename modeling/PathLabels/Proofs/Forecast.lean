import PathLabels.Proofs.Checkout
import PathLabels.Proofs.Listing
import PathLabels.Proofs.StageOrder
import PathLabels.Proofs.Utf8
import PathLabels.Proofs.Words

/-!
# A labelling can be foretold

What a labelling decides follows from the rule table and the changes. A run that applies nothing
reads both in the same way, so it says the same, whatever the tracker would have answered. The
changed paths may also be written down and given to the command that decides the labels of paths,
one to a line or as words of the command line, and that says the same once more.
-/

namespace PathLabels

/-! ## Runs that apply nothing -/

/-- The same inputs for a run that applies nothing, and needs neither a token nor a repository. -/
def RunInputs.dry (inputs : RunInputs) : RunInputs :=
  { inputs with dryRun := true, token := none, repository := none }

theorem Config.ofInputs_dry {inputs : RunInputs} {config : Config}
    (h : Config.ofInputs inputs = .ok config) :
    Config.ofInputs inputs.dry = .ok { config with target := none } := by
  unfold Config.ofInputs at h ⊢
  obtain ⟨pr, hpr, h⟩ := bind_eq_ok_iff.mp h
  refine bind_eq_ok_iff.mpr ⟨pr, hpr, ?_⟩
  dsimp only at h
  split at h
  · cases h
    rfl
  · obtain ⟨target, -, h⟩ := bind_eq_ok_iff.mp h
    cases h
    rfl

/-- What a summary says is what a table says about changes. -/
structure Summary.IsOf (summary : Summary) (table : RuleTable) (changes : ChangeSet) : Prop where
  changedFiles : summary.changedFiles = changes.size
  matched : summary.matched = changes.evaluate table
  decision : summary.decision = summary.matched.decide table.settings

/-- Two summaries say the same, except about what has been applied. -/
structure Summary.Agrees (summary other : Summary) : Prop where
  changedFiles : other.changedFiles = summary.changedFiles
  matched : other.matched = summary.matched
  decision : other.decision = summary.decision

theorem Summary.IsOf.agrees {summary other : Summary} {table : RuleTable} {changes : ChangeSet}
    (h : summary.IsOf table changes) (h' : other.IsOf table changes) : summary.Agrees other where
  changedFiles := h'.changedFiles.trans h.changedFiles.symm
  matched := h'.matched.trans h.matched.symm
  decision := by rw [h'.decision, h.decision, h'.matched, h.matched]

/-- The summary of a run is about the table and the changes that the run has read. -/
theorem Labelling.exists_isOf {σ : Type} {host : Host (StateM σ)} {config : Config} {s s' : σ}
    {summary : Summary} (h : Labelling host config s (.ok summary) s') :
    ∃ table changes, (config.load host s).1 = .ok table ∧ config.fetched host s = .ok changes
      ∧ summary.IsOf table changes := by
  cases h with
  | forecast hload _ hfetch =>
    obtain ⟨-, hfetched⟩ := Config.fetched_of_load hload hfetch
    exact ⟨_, _, congrArg Prod.fst hload, hfetched, rfl, rfl, rfl⟩
  | applied hload _ _ hfetch _ =>
    obtain ⟨-, hfetched⟩ := Config.fetched_of_load hload hfetch
    exact ⟨_, _, congrArg Prod.fst hload, hfetched, rfl, rfl, rfl⟩

namespace World

variable {w w' : World}

/-- With the same files there is the same table. -/
theorem load_eq_of_files (h : w'.files = w.files) (config : Config) :
    (config.load host w').1 = (config.load host w).1 := by
  have htree : w'.tree = w.tree := congrArg Prod.fst h
  have hplace : w'.workDir = w.workDir := congrArg Prod.snd h
  show RuleTable.ofFile _ (w'.tree.read w'.workDir _) = RuleTable.ofFile _ (w.tree.read w.workDir _)
  rw [htree, hplace]

theorem SameCheckout.load_eq (h : w.SameCheckout w') (config : Config) :
    (config.load host w').1 = (config.load host w).1 :=
  load_eq_of_files (congrArg₂ Prod.mk h.tree h.workDir) config

theorem SameCheckout.fetched_eq (h : w.SameCheckout w') (config : Config) :
    config.fetched host w' = config.fetched host w :=
  (Alike.changes (alike_runGit config.repoDir) config.baseRef config.headRef w w' h).1.symm

end World

/-- Inputs that give a summary give one without a tracker, and it is about the same. -/
theorem Cli.exists_dry {inputs : RunInputs} {config : Config} {table : RuleTable}
    {changes : ChangeSet} {w w' : World} (hinputs : Config.ofInputs inputs = .ok config)
    (htable : (config.load World.host w).1 = .ok table)
    (hchanges : config.fetched World.host w = .ok changes) (hw : w.SameCheckout w') :
    ∃ dry, ((labelled World.host inputs.dry).run w').1 = .ok dry ∧ dry.IsOf table changes := by
  -- what is loaded and what is fetched does not depend on the target
  let config' := { config with target := none }
  have hload : (config'.load World.host w').1 = .ok table := (hw.load_eq config).trans htable
  have hfetched : config'.fetched World.host w' = .ok changes :=
    (hw.fetched_eq config).trans hchanges
  have hlabelling := config'.labelling World.host w'
  obtain ⟨dry, hdry⟩ : ∃ dry, ((config'.label World.host).run w').1 = .ok dry :=
    hlabelling.staged.ok_iff.mpr ⟨⟨table, hload⟩, nofun, changes, hfetched⟩
  rw [hdry] at hlabelling
  obtain ⟨table', changes', hload', hfetched', hisOf⟩ := hlabelling.exists_isOf
  obtain rfl := Except.ok.inj (hload.symm.trans hload')
  obtain rfl := Except.ok.inj (hfetched.symm.trans hfetched')
  rw [labelled_eq_of_ok World.host (Config.ofInputs_dry hinputs)]
  exact ⟨dry, hdry, hisOf⟩

/-! ## Deciding the labels of paths -/

/-- What is shown of matches and a decision. -/
def Decision.shown (json : Bool) (matched : MatchResult) (decision : Decision) : String :=
  if json then (decision.jsonWith matched).pretty ++ "\n"
  else String.join ((matched.lines ++ [decision.line]).map (· ++ "\n"))

namespace World

/-- The world once a text has been printed. -/
def print (w : World) (text : String) : World := { w with printed := w.printed ++ text }

theorem print_print (w : World) (s t : String) : (w.print s).print t = w.print (s ++ t) := by
  rw [print, print, print, String.append_assoc]

end World

namespace Cli

theorem run_printLines (lines : List String) (w : World) :
    (lines.forM (printLine World.host)).run w
      = ((), w.print (String.join (lines.map (· ++ "\n")))) := by
  induction lines generalizing w with
  | nil => rw [List.map_nil, String.join_nil, World.print, String.append_empty]; rfl
  | cons line lines ih =>
    show (lines.forM (printLine World.host)).run (w.print (line ++ "\n")) = _
    rw [ih, World.print_print, List.map_cons, String.join_cons]

theorem run_showDecision (json : Bool) (table : RuleTable) (changes : ChangeSet) (w : World) :
    let matched := changes.evaluate table
    (showDecision World.host json table changes).run w
      = ((), w.print ((matched.decide table.settings).shown json matched)) := by
  intro matched
  cases json with
  | true => rfl
  | false =>
    show ((), ((matched.lines.forM (printLine World.host)).run w).2.print
      ((matched.decide table.settings).line ++ "\n")) = _
    rw [run_printLines, World.print_print, Decision.shown, List.map_append, String.join_append,
      List.map_singleton, String.join_cons, String.join_nil, String.append_empty]
    rfl

/-- Once it is known what paths there are, their labels are shown. -/
theorem run_decide {rulesPath : String} {table : RuleTable} {given paths : List String}
    {w w' : World} (htable : RuleTable.ofFile rulesPath (w.tree.read w.workDir rulesPath) = .ok table)
    (log : Log) (json : Bool) (hpaths : (pathsOf World.host given).run w = (.ok paths, w')) :
    let matched := (ChangeSet.ofList paths).evaluate table
    (decide log World.host rulesPath json given).run w
      = (.success, w'.print ((matched.decide table.settings).shown json matched)) := by
  intro matched
  have hread : (World.host.readFile rulesPath).run w = (w.tree.read w.workDir rulesPath, w) := rfl
  unfold decide
  rw [StateM.run_bind, hread, htable]
  dsimp only
  rw [StateM.run_bind, hpaths]
  dsimp only
  rw [StateM.run_bind, run_showDecision]
  rfl

/-- Paths that are given are those. -/
theorem run_pathsOf_given {paths : List String} (hpaths : paths ≠ []) (w : World) :
    (pathsOf World.host paths).run w = (.ok paths, w) := by
  have hempty : paths.isEmpty = false := by simpa using hpaths
  unfold pathsOf
  rw [hempty]
  rfl

/-- If none are given, they are those that standard input lists. -/
theorem run_pathsOf_input {text : String} {w : World} (hinput : w.input = Text.bytes text) :
    (pathsOf World.host []).run w = (.ok (listedPaths text), { w with input := [] }) := by
  show ((Text.decode w.input).map listedPaths, ({ w with input := [] } : World)) = _
  rw [hinput, Text.decode_bytes]
  rfl

variable {environment : String → Option String} {args : List String} {format : LogFormat}

theorem run_of_decide {rulesPath : String} {json : Bool} {paths : List String}
    (hparse : Invocation.parse environment args = .ok ⟨format, .decide rulesPath json paths⟩) :
    run World.host environment args
      = decide ⟨format, showsErrors (environment "RUST_LOG")⟩ World.host rulesPath json paths := by
  unfold run
  rw [hparse]
  rfl

/-- **What a command line prints that decides the labels of paths** is what the run found, if the
paths are those that the run found. -/
theorem run_of_paths {rulesPath : String} {json : Bool} {given paths : List String}
    {table : RuleTable} {summary : Summary} {changes : ChangeSet} {w w' : World}
    (hparse : Invocation.parse environment args = .ok ⟨format, .decide rulesPath json given⟩)
    (htable : RuleTable.ofFile rulesPath (w.tree.read w.workDir rulesPath) = .ok table)
    (hsummary : summary.IsOf table changes)
    (hpaths : (pathsOf World.host given).run w = (.ok paths, w'))
    (hchanges : ChangeSet.ofList paths = changes) :
    (run World.host environment args).run w
      = (.success, w'.print (summary.decision.shown json summary.matched)) := by
  rw [run_of_decide hparse, run_decide htable _ json hpaths, hchanges, hsummary.decision,
    hsummary.matched]

end Cli

/-- A plain path that git has found stands for itself. -/
theorem Config.entry?_of_plain {config : Config} {w : World} {changes : ChangeSet}
    (h : config.fetched World.host w = .ok changes) (hplain : ∀ p ∈ changes.paths, Path.Plain p) :
    ∀ p ∈ changes.paths, ChangeSet.entry? p = some p := by
  obtain ⟨entries, rfl⟩ :=
    Git.yields_changes (World.host.git config.repoDir) config.baseRef config.headRef _ _ h
  intro p hp
  obtain ⟨e, -, he⟩ := ChangeSet.mem_paths_ofList.mp hp
  exact ChangeSet.entry?_self (ChangeSet.ne_empty_of_entry he) (hplain p hp).unpadded
    (hplain p hp).direct

/-! ## The law -/

/-- What the command that decides the labels of paths says of changes, if it is given their paths:
what a summary says. They may be given on standard input or, if there are any, as words. -/
structure Cli.Foretells (summary : Summary) (changes : ChangeSet) (w : World)
    (environment : String → Option String) (args : List String) (json : Bool) : Prop where
  lines : ∀ text, Lists text changes.paths → w.input = Text.bytes text →
    ChangeSet.ofList (listedPaths text) = changes
      ∧ (run World.host environment args).run w
        = (.success, ({ w with input := [] } : World).print
            (summary.decision.shown json summary.matched))
  words : ∀ paths, paths ≠ [] → (∀ p, p ∈ paths ↔ p ∈ changes.paths) → "--" ∉ args →
    ChangeSet.ofList paths = changes
      ∧ (run World.host environment (args ++ "--" :: paths)).run w
        = (.success, w.print (summary.decision.shown json summary.matched))

/--
**A labelling can be foretold.**

Take any inputs and any files, git and network in memory with which labelling ends with a summary.
The summary is about the table and the changes that were read. With the same files and the same git,
and whatever the network answers, the run that applies nothing ends with a summary as well, and it
agrees with the first one about the number of changed files, the matches and the decision.

If the changed paths are plain, they can also be given to the command that decides the labels of
paths: in any order and any number of times, on lines with blanks around them and blank lines
between them, or after `--`. It takes them for the same change set, with the same table, and shows
the matches and the decision of the summary. The paths themselves, each on a line of its own, are
one such text.
-/
theorem labelling_foretold {inputs : RunInputs} {w : World} {summary : Summary}
    (hrun : ((Cli.labelled World.host inputs).run w).1 = .ok summary) :
    ∃ config table changes, Config.ofInputs inputs = .ok config
      ∧ (config.load World.host w).1 = .ok table ∧ config.fetched World.host w = .ok changes
      ∧ summary.IsOf table changes
      ∧ (∀ w', w.SameCheckout w' → ∃ dry,
          ((Cli.labelled World.host inputs.dry).run w').1 = .ok dry ∧ summary.Agrees dry)
      ∧ ((∀ p ∈ changes.paths, Path.Plain p) →
        Cli.Lists (Cli.onLines changes.paths) changes.paths
          ∧ ∀ (w' : World) environment args format json, w'.files = w.files →
            Cli.Invocation.parse environment args = .ok ⟨format, .decide config.rulesPath json []⟩ →
            Cli.Foretells summary changes w' environment args json) := by
  cases hinputs : Config.ofInputs inputs with
  | error e =>
    rw [Cli.run_labelled_of_error World.host hinputs w] at hrun
    cases hrun
  | ok config =>
    rw [Cli.labelled_eq_of_ok World.host hinputs] at hrun
    have hlabelling := config.labelling World.host w
    rw [hrun] at hlabelling
    obtain ⟨table, changes, htable, hchanges, hsummary⟩ := hlabelling.exists_isOf
    refine ⟨config, table, changes, rfl, htable, hchanges, hsummary, fun w' hw => ?_, ?_⟩
    · obtain ⟨dry, hdry, hisOf⟩ := Cli.exists_dry hinputs htable hchanges hw
      exact ⟨dry, hdry, hsummary.agrees hisOf⟩
    intro hplain
    refine ⟨Cli.lists_onLines hplain, fun w' environment args format json hfiles hparse => ?_⟩
    have hread : RuleTable.ofFile config.rulesPath (w'.tree.read w'.workDir config.rulesPath)
        = .ok table := (World.load_eq_of_files hfiles config).trans htable
    -- in both ways the command has the change set of the run before it, and the rest is the same
    have hself := Config.entry?_of_plain hchanges hplain
    refine ⟨fun text hlists hinput => ?_, fun paths hne hpaths hdash => ?_⟩
    · have hset := Cli.ofList_listedPaths hlists hself fun p hp => (hplain p hp).unpadded
      exact ⟨hset, Cli.run_of_paths hparse hread hsummary (Cli.run_pathsOf_input hinput) hset⟩
    · have hset := ChangeSet.ofList_eq_of_entries hself (fun p hp => Or.inr ((hpaths p).mp hp))
        fun p hp => (hpaths p).mpr hp
      have hparse' := Cli.parse_append_words hparse hdash paths
      exact ⟨hset, Cli.run_of_paths hparse' hread hsummary (Cli.run_pathsOf_given hne w') hset⟩

/-- One path on a line with blanks around it, which ends as lines do on some systems, and a blank
line. -/
theorem Cli.lists_surrounded : Lists " a/b\r\n\n" ["a/b"] := by
  have hheld : Holds [' ', 'a', '/', 'b', '\r'] "a/b" :=
    ⟨[' '], ['\r'], rfl, List.forall_mem_singleton.mpr rfl, List.forall_mem_singleton.mpr rfl⟩
  have hblank : Holds [] "" := ⟨[], [], rfl, List.forall_mem_nil _, List.forall_mem_nil _⟩
  refine ⟨[[' ', 'a', '/', 'b', '\r'], [], []], List.cons_ne_nil _ _, rfl, ?_, ?_⟩
  · simp [hheld, hblank]
  · simp [hheld]

theorem Path.plain_ab : Plain "a/b" where
  oneLine := by decide
  unpadded := ⟨fun c hc => by cases hc; rfl, fun c hc => by cases hc; rfl⟩
  direct := by decide

/-- A pull request that changes `a/b`, which a rule owns, and a server that answers nothing. -/
theorem labelling_foretold_unanswered :
    let w := Cli.oneRule [] []
    let onLines : World := { w with input := Text.bytes " a/b\r\n\n" }
    let inputs := Cli.labelInputs "http://h"
    ∃ summary, ((Cli.labelled World.host inputs).run w).1 = .ok summary
      ∧ (∃ dry, ((Cli.labelled World.host inputs.dry).run w).1 = .ok dry ∧ summary.Agrees dry)
      ∧ (Cli.run World.host (fun _ => none) ["match"]).run onLines
        = (.success, w.print (summary.decision.shown false summary.matched))
      ∧ (Cli.run World.host (fun _ => none) ["match", "--", "a/b"]).run w
        = (.success, w.print (summary.decision.shown false summary.matched)) := by
  intro w onLines inputs
  have hsome : ((Cli.labelled World.host inputs).run w).1.toOption.isSome = true := by
    decide +kernel
  obtain ⟨summary, hrun⟩ := exists_eq_ok hsome
  obtain ⟨config, table, changes, hconfig, -, hchanges, -, hdry, hmatch⟩ := labelling_foretold hrun
  obtain rfl : Config.withToken "tok" = config :=
    Except.ok.inj ((Cli.eq_ok_of_toOption (by decide +kernel)).symm.trans hconfig)
  have hpaths : changes.paths = ["a/b"] := by
    have hfetched : ((Config.withToken "tok").fetched World.host w).toOption.map ChangeSet.paths
        = some ["a/b"] := by decide +kernel
    rw [hchanges] at hfetched
    exact Option.some.inj hfetched
  have hplain : ∀ p ∈ changes.paths, Path.Plain p := by
    rw [hpaths]
    exact List.forall_mem_singleton.mpr Path.plain_ab
  have hparse : Cli.Invocation.parse (fun _ => none) ["match"]
      = .ok ⟨.text, .decide (Config.withToken "tok").rulesPath false []⟩ :=
    Cli.eq_ok_of_toOption (by decide +kernel)
  obtain ⟨-, hforetells⟩ := hmatch hplain
  obtain ⟨hlines, -⟩ := hforetells onLines _ _ _ _ rfl hparse
  obtain ⟨-, hwords⟩ := hforetells w _ _ _ _ rfl hparse
  refine ⟨summary, hrun, hdry w (.refl w), (hlines _ ?_ rfl).2, (hwords ["a/b"] ?_ ?_ ?_).2⟩
  · rw [hpaths]; exact Cli.lists_surrounded
  · exact List.cons_ne_nil _ _
  · intro p; rw [hpaths]
  · decide

end PathLabels
