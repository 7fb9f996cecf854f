import PathLabels.Repository
import PathLabels.Text.Quoted

/-!
# Configuration of a run

The inputs of a run are what its caller has collected, and any of them may be absent. They become
a configuration once the ones that are needed are there: a pull request always, and a repository
and a token unless the run applies nothing.
-/

namespace PathLabels

/-- Where labels are applied, and with which credentials. -/
structure Target where
  token : String
  repository : Repository
  apiUrl : String
  deriving Repr, DecidableEq, Inhabited

/-- The text of a target for logs. It does not show the token. -/
def Target.logText (t : Target) : String :=
  "GitHubSettings \x7b token: " ++ Text.quoted "[REDACTED]"
    ++ ", repository: Repository \x7b owner: " ++ Text.quoted t.repository.owner
    ++ ", name: " ++ Text.quoted t.repository.name
    ++ " \x7d, api_url: " ++ Text.quoted t.apiUrl ++ " \x7d"

/-- The inputs of a run. -/
structure RunInputs where
  pr : Option Nat := none
  rulesPath : Option String := none
  repoDir : Option String := none
  baseRef : Option String := none
  headRef : Option String := none
  repository : Option String := none
  token : Option String := none
  apiUrl : Option String := none
  /-- Whether to stop at the decision. -/
  dryRun : Bool := false
  deriving Repr, DecidableEq, Inhabited

/-- What a run needs to know. -/
structure Config where
  pr : Nat
  rulesPath : String
  repoDir : String
  baseRef : String
  headRef : String
  /-- Where to apply the decision; none if it is not applied. -/
  target : Option Target
  deriving Repr, DecidableEq, Inhabited

namespace Config

def defaultRulesPath : String := "autolabel.toml"

def defaultRepoDir : String := "."

def defaultBaseRef : String := "origin/master"

def defaultHeadRef : String := "HEAD"

def defaultApiUrl : String := "https://api.github.com"

/-- A setting that has to be there. -/
def require {α : Type} (setting : RequiredSetting) : Option α → Except ConfigError α
  | some a => .ok a
  | none => .error (.missing setting)

/-- The target that the inputs describe. A blank token is none. -/
def targetOf (inputs : RunInputs) : Except ConfigError Target := do
  let repository ← Repository.parse (← require .repository inputs.repository)
  let token ← require .token (inputs.token.filter fun t => !Text.allBlank t)
  return { token, repository, apiUrl := inputs.apiUrl.getD defaultApiUrl }

/-- The configuration that the inputs describe. -/
def ofInputs (inputs : RunInputs) : Except ConfigError Config := do
  let pr ← require .pullRequest inputs.pr
  let target ← if inputs.dryRun then pure none else some <$> targetOf inputs
  return {
    pr, target
    rulesPath := inputs.rulesPath.getD defaultRulesPath
    repoDir := inputs.repoDir.getD defaultRepoDir
    baseRef := inputs.baseRef.getD defaultBaseRef
    headRef := inputs.headRef.getD defaultHeadRef }

/-- Whether the run stops at the decision. -/
def isDryRun (config : Config) : Bool := config.target.isNone

/-- The text of a configuration for logs. A path is shown as the system shows it that has it. -/
def logText (quotedPath : String → String) (config : Config) : String :=
  let target := match config.target with
    | none => "None"
    | some target => "Some(" ++ target.logText ++ ")"
  "RunConfig \x7b pr_number: " ++ toString config.pr
    ++ ", rules_path: " ++ quotedPath config.rulesPath
    ++ ", repo_dir: " ++ quotedPath config.repoDir
    ++ ", base_ref: " ++ Text.quoted config.baseRef
    ++ ", head_ref: " ++ Text.quoted config.headRef
    ++ ", github: " ++ target ++ " \x7d"

end Config

end PathLabels
