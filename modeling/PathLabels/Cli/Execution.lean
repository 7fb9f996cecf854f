import PathLabels.Cli.Log
import PathLabels.Labeling
import PathLabels.MatchText
import PathLabels.StalePatterns
import PathLabels.StepOutput

/-!
# Carrying out commands

Each command ends with an exit code: 0 if all went well, 1 if something kept the command from being
carried out, and 2 if it was carried out with a finding, which is a label that could not be added or
a stale pattern. A command line that describes no command ends with 2 as well.
-/

namespace PathLabels.Cli

variable {m : Type → Type} [Monad m]

/-- The code that a process ends with. -/
inductive ExitCode where
  | success
  | failure
  | finding
  deriving Repr, DecidableEq

/-- The number of an exit code. -/
def ExitCode.toNat : ExitCode → Nat
  | .success => 0
  | .failure => 1
  | .finding => 2

/-- Prints a line. -/
def printLine (host : Host m) (line : String) : m Unit := host.print (line ++ "\n")

/-- Logs what kept a command from being carried out, with the fault behind it if there is one. -/
def fail (log : Log) (host : Host m) (message : String) (cause? : Option String := none) :
    m ExitCode := do
  log.error host (message ++ (cause?.map fun cause => ": " ++ cause).getD "")
  return .failure

/-! ## Labelling -/

/-- Logs the labels that could not be added. -/
def logFailures (log : Log) (host : Host m) (failed : List ApplyError) : m Unit :=
  failed.forM fun e =>
    log.error host "Label not applied" [("label", e.label), ("error", e.cause.message)]

/-- What a finished run ends with. -/
def conclude (log : Log) (host : Host m) (summary : Summary) : m ExitCode := do
  match summary.report with
  | none => return .success
  | some report =>
    logFailures log host report.failed
    match report.outcome with
    | .incomplete | .failed => return .finding
    | .nothing | .skipped | .complete => return .success

/-- Labels a pull request. -/
def label (log : Log) (host : Host m) (inputs : RunInputs) (stepOutput : Option String) :
    m ExitCode := do
  match Config.ofInputs inputs with
  | .error e => fail log host e.message e.cause?
  | .ok config =>
    match ← config.label host with
    | .error e => fail log host e.message e.cause?
    | .ok summary =>
      printLine host summary.decision.labelsText
      match stepOutput with
      | none => conclude log host summary
      | some path =>
        match ← summary.decision.writeOutput host path with
        | .error e => fail log host s!"Failed to write {path}" e.message
        | .ok () => conclude log host summary

/-! ## Deciding and checking -/

/-- The paths that a text lists, one on each line. -/
def listedPaths (text : String) : List String :=
  (text.toList.splitOn '\n').map fun line => String.ofList (Text.trimChars line)

/-- The paths that are given, or those on standard input. -/
def pathsOf (host : Host m) (paths : List String) : m (Except Text.Utf8Error (List String)) := do
  if paths.isEmpty then return (Text.decode (← host.input)).map listedPaths
  else return .ok paths

/-- Shows the labels of a change set. -/
def showDecision (host : Host m) (json : Bool) (table : RuleTable) (changes : ChangeSet) :
    m Unit := do
  let matched := changes.evaluate table
  let decision := matched.decide table.settings
  if json then printLine host (decision.jsonWith matched).pretty
  else
    matched.lines.forM (printLine host)
    printLine host decision.line

/-- Decides the labels of paths. -/
def decide (log : Log) (host : Host m) (rulesPath : String) (json : Bool) (paths : List String) :
    m ExitCode := do
  match RuleTable.ofFile rulesPath (← host.readFile rulesPath) with
  | .error e => fail log host e.message e.cause?
  | .ok table =>
    match ← pathsOf host paths with
    | .error _ => fail log host "Failed to read paths from stdin" IoError.notText.message
    | .ok paths =>
      showDecision host json table (ChangeSet.ofList paths)
      return .success

/-- Reports the stale patterns of a table. -/
def reportStale (host : Host m) (table : RuleTable) (repoDir : String) : m ExitCode := do
  let missing ← table.missingPaths (host.hasPath repoDir)
  if missing.isEmpty then
    printLine host s!"all prefix patterns exist under {repoDir}"
    return .success
  else
    missing.forM fun (label, pattern) => printLine host s!"{label}: '{pattern}' does not exist"
    return .finding

/-- Checks a rule table. -/
def check (log : Log) (host : Host m) (rulesPath : String) (repoDir : Option String) :
    m ExitCode := do
  match RuleTable.ofFile rulesPath (← host.readFile rulesPath) with
  | .error e => fail log host e.message e.cause?
  | .ok table =>
    let count := table.rules.length
    printLine host s!"{rulesPath}: {count} rule(s), policy {table.settings.policy.name}"
    match repoDir with
    | none => return .success
    | some repoDir => reportStale host table repoDir

/-! ## Command lines -/

/-- The name and the version of the program. -/
def versionLine : String := "autolabel 0.1.0"

/-- The forms of a command line. -/
def usage : List String := [
  "Label pull requests by the paths they change",
  "",
  "Usage: autolabel [-v] [--log-format text|json] <COMMAND>",
  "",
  "Commands:",
  "  run    --pr N [--rules FILE] [--repository OWNER/NAME] [--token TOKEN] [--api-url URL]",
  "         [--base REF] [--head REF] [--repo-dir DIR] [--dry-run] [--github-output FILE]",
  "  match  [--rules FILE] [--json] [FILES]...",
  "  check  [--rules FILE] [--repo-dir DIR]",
  "  help   [COMMAND]"]

/-- Carries out a command. -/
def execute (log : Log) (host : Host m) : Command → m ExitCode
  | .label inputs stepOutput => label log host inputs stepOutput
  | .decide rulesPath json paths => decide log host rulesPath json paths
  | .check rulesPath repoDir => check log host rulesPath repoDir

/-- Carries out a command line. -/
def run (host : Host m) (environment : String → Option String) (args : List String) :
    m ExitCode := do
  match Invocation.parse environment args with
  | .error .help =>
    usage.forM (printLine host)
    return .success
  | .error .version =>
    printLine host versionLine
    return .success
  | .error (.misuse reason) =>
    host.logError s!"error: {reason}"
    return .finding
  | .ok invocation =>
    let log : Log := ⟨invocation.logFormat, showsErrors (environment "RUST_LOG")⟩
    execute log host invocation.command

end PathLabels.Cli
