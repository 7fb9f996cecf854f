import PathLabels.Cli.Arguments
import PathLabels.Config
import PathLabels.Text.Integers

/-!
# Commands

What a command line asks for. There are three commands: to label a pull request, to decide the
labels of given paths, and to check a rule table. Some options of the first have a variable of the
environment to fall back on, as continuous integration sets them.
-/

namespace PathLabels.Cli

/-- How the log is written. -/
inductive LogFormat where
  | text
  | json
  deriving Repr, DecidableEq

/-- What to do. -/
inductive Command where
  /-- Labels a pull request, and writes the decision to a step output file if one is named. -/
  | label (inputs : RunInputs) (stepOutput : Option String)
  /-- Decides the labels of paths; without any they are read from standard input. -/
  | decide (rulesPath : String) (json : Bool) (paths : List String)
  /-- Checks a rule table, and its patterns against a checkout if one is named. -/
  | check (rulesPath : String) (repoDir : Option String)
  deriving Repr, DecidableEq

/-- A command line. -/
structure Invocation where
  logFormat : LogFormat
  command : Command
  deriving Repr, DecidableEq

/-! ## Options -/

def anyText : OptionKind := .value fun _ => true

/-- A path is not empty. -/
def pathText : OptionKind := .value fun s => !s.isEmpty

def numberText : OptionKind := .value fun s => (Text.uint64? s).isSome

/-- The format with a name. -/
def LogFormat.ofName? : String → Option LogFormat
  | "text" => some .text
  | "json" => some .json
  | _ => none

def helpOption : OptionSpec := { name := "help", short := some 'h', kind := .stop .help }

def versionOption : OptionSpec := { name := "version", short := some 'V', kind := .stop .version }

/-- The options that may stand before a command and after it. `--verbose` asks for messages besides
errors, of which there are none. -/
def commonOptions : List OptionSpec :=
  [{ name := "verbose", short := some 'v', kind := .flag },
    { name := "log-format", kind := .value fun s => (LogFormat.ofName? s).isSome }, helpOption]

def rulesOption : OptionSpec :=
  { name := "rules", kind := pathText, variableName := some "AUTOLABEL_RULES" }

def labelOptions : List OptionSpec :=
  [{ name := "pr", kind := numberText, variableName := some "PR_NUMBER" },
    rulesOption,
    { name := "repository", kind := anyText, variableName := some "GITHUB_REPOSITORY" },
    { name := "token", kind := anyText, variableName := some "GITHUB_TOKEN" },
    { name := "api-url", kind := anyText, variableName := some "GITHUB_API_URL" },
    { name := "base", kind := anyText, variableName := some "AUTOLABEL_BASE_REF" },
    { name := "head", kind := anyText },
    { name := "repo-dir", kind := pathText },
    { name := "dry-run", kind := .flag },
    { name := "github-output", kind := pathText, variableName := some "GITHUB_OUTPUT" }]

def decideOptions : List OptionSpec := [rulesOption, { name := "json", kind := .flag }]

def checkOptions : List OptionSpec := [rulesOption, { name := "repo-dir", kind := pathText }]

/-! ## Commands -/

/-- The path of the rule table. -/
def rulesPath (given : Given) : String := (given.value? "rules").getD Config.defaultRulesPath

/-- The labelling that options ask for. -/
def labelCommand (given : Given) : Except Stop Command :=
  match (given.value? "pr").bind Text.uint64? with
  | none => .error (.misuse "the required argument '--pr' was not provided")
  | some pr => .ok (.label {
      pr := some pr
      rulesPath := some (rulesPath given)
      repoDir := some ((given.value? "repo-dir").getD Config.defaultRepoDir)
      baseRef := some ((given.value? "base").getD Config.defaultBaseRef)
      headRef := some ((given.value? "head").getD Config.defaultHeadRef)
      repository := given.value? "repository"
      token := given.value? "token"
      apiUrl := some ((given.value? "api-url").getD Config.defaultApiUrl)
      dryRun := given.has "dry-run" } (given.value? "github-output"))

/-- A command by its name: its options, its words, and what they ask for. -/
structure CommandSpec where
  name : String
  options : List OptionSpec
  words : WordRule
  build : Given → Except Stop Command

def commands : List CommandSpec :=
  [{ name := "run", options := labelOptions, words := .none, build := labelCommand },
    { name := "match", options := decideOptions, words := .many,
      build := fun given => .ok (.decide (rulesPath given) (given.has "json") given.words) },
    { name := "check", options := checkOptions, words := .none,
      build := fun given => .ok (.check (rulesPath given) (given.value? "repo-dir")) }]

/-- The stop that the command `help` ends in: the names after it have to be those of commands. -/
def helpFor (names : List String) : Stop :=
  match names with
  | [] => .help
  | [name] =>
    if name == "help" || commands.any (fun c => c.name == name) then .help
    else .misuse s!"unrecognized subcommand '{name}'"
  | name :: _ => .misuse s!"unrecognized subcommand '{name}'"

/-- Reads a command line. An option that may stand on both sides of the command counts as it is
given after it. -/
def Invocation.parse (environment : String → Option String) (args : List String) :
    Except Stop Invocation := do
  let (outer, rest) ← readArguments (commonOptions ++ [versionOption]) .command {} args
  match rest with
  | [] => throw (.misuse "a subcommand is required")
  | name :: rest =>
    if name == "help" then throw (helpFor rest)
    match commands.find? fun c => c.name == name with
    | none => throw (.misuse s!"unrecognized subcommand '{name}'")
    | some c =>
      let (given, _) ← readArguments (c.options ++ commonOptions) c.words {} rest
      let given ← fromEnvironment environment c.options given
      let command ← c.build given
      let logFormat := ((given.value? "log-format").or (outer.value? "log-format")).bind
        LogFormat.ofName?
      return { logFormat := logFormat.getD .text, command }

end PathLabels.Cli
