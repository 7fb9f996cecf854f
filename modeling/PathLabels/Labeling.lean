import PathLabels.GitHub.Client
import PathLabels.Host.Basic
import PathLabels.Pipeline

/-!
# Labelling a pull request

What a configuration describes, from the rule table to the report: the table is read, a client is
made unless nothing is to be applied, and then there is a single run. The table and the client come
before anything that reaches beyond the program, so a fault of either leaves nothing behind.
-/

namespace PathLabels

/-- Why a pull request could not be labelled. -/
inductive RunError where
  | config (e : ConfigError)
  | fetch (e : FetchError)
  | tracker (e : TrackerError)
  deriving Repr, DecidableEq

namespace RunError

/-- The text shown for a fault. -/
def message : RunError → String
  | config e => e.message
  | fetch e => e.message
  | tracker e => e.message

/-- The text of the fault behind a fault, if there is one. -/
def cause? : RunError → Option String
  | config e => e.cause?
  | fetch e => e.cause?
  | tracker _ => none

end RunError

namespace Config

variable {m : Type → Type} [Monad m]

/-- The changed files of the checkout that a configuration names. -/
def source (host : Host m) (config : Config) : ChangeSource m :=
  (host.git config.repoDir).source config.baseRef config.headRef

/-- The single run of a configuration without a tracker. -/
def dryRun (host : Host m) (config : Config) (table : RuleTable) :
    m (Except FetchError Summary) := do
  let (result, _) ← (Pipeline.ofTable (config.source host) table).run config.pr none
  return result

/-- The single run of a configuration over a client. -/
def clientRun (host : Host m) (config : Config) (table : RuleTable) (client : GitHub.Client) :
    m (Except FetchError Summary) := do
  let source : ChangeSource (StateT GitHub.Client m) := fun pr => liftM (config.source host pr)
  let tracker := GitHub.Client.tracker host.network
  let ((result, _), _) ← ((Pipeline.ofTable source table).run config.pr (some tracker)).run client
  return result

/-- The run of a configuration with its table. -/
def runWith (host : Host m) (config : Config) (table : RuleTable) :
    m (Except RunError Summary) := do
  match config.target with
  | none => return (← config.dryRun host table).mapError .fetch
  | some target =>
    match GitHub.Client.ofTarget target with
    | .error e => return .error (.tracker e)
    | .ok client => return (← config.clientRun host table client).mapError .fetch

/-- Labels the pull request of a configuration. -/
def label (host : Host m) (config : Config) : m (Except RunError Summary) := do
  match RuleTable.ofFile config.rulesPath (← host.readFile config.rulesPath) with
  | .error e => return .error (.config e)
  | .ok table => config.runWith host table

end Config

end PathLabels
