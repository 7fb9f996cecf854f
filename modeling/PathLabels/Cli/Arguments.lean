/-!
# Reading arguments

An argument that begins with a hyphen is an option: `--name`, `--name value`, `--name=value`, or
after a single hyphen a row of short names. Everything else is a word, and after `--` everything
is. An option is given at most once. Arguments are read from left to right, and the first thing
that ends the reading decides: a mistake, or an option that asks for help or for the version.
-/

namespace PathLabels.Cli

/-- Why arguments describe no command. -/
inductive Stop where
  /-- Help is asked for. -/
  | help
  /-- The version is asked for. -/
  | version
  /-- The arguments are wrong. -/
  | misuse (reason : String)
  deriving Repr, DecidableEq

/-- What an option does. -/
inductive OptionKind where
  /-- The option stands alone. -/
  | flag
  /-- The option has a value, which has to be valid. -/
  | value (isValid : String → Bool)
  /-- The option ends the reading. -/
  | stop (reason : Stop)

/-- An option. -/
structure OptionSpec where
  name : String
  short : Option Char := none
  kind : OptionKind
  /-- The variable of the environment whose value counts if the option is not given. -/
  variableName : Option String := none

/-- Which words may stand among the options. -/
inductive WordRule where
  /-- None. -/
  | none
  /-- Any number of them. -/
  | many
  /-- One, which ends the reading. -/
  | command
  deriving Repr, DecidableEq

/-- What has been read. -/
structure Given where
  /-- The options that have been given, with their values. -/
  options : List (String × String) := []
  words : List String := []
  deriving Repr, DecidableEq, Inhabited

namespace Given

/-- Whether an option has been given. -/
def has (given : Given) (name : String) : Bool := (given.options.lookup name).isSome

/-- The value of an option. -/
def value? (given : Given) (name : String) : Option String := given.options.lookup name

/-- Takes note of an option unless it has been given before. -/
def note (given : Given) (name value : String) : Except Stop Given :=
  if given.has name then .error (.misuse s!"the argument '--{name}' cannot be used multiple times")
  else .ok { given with options := given.options ++ [(name, value)] }

end Given

/-- Whether an argument looks like an option. A single hyphen does not. -/
def isOptionLike (arg : String) : Bool :=
  match arg.toList with
  | '-' :: _ :: _ => true
  | _ => false

/-- A mistake in an argument. -/
def unexpected (arg : String) : Stop := .misuse s!"unexpected argument '{arg}' found"

/-- Gives an option its value. -/
def noteValue (given : Given) (spec : OptionSpec) (isValid : String → Bool) (value : String) :
    Except Stop Given :=
  if isValid value then given.note spec.name value
  else .error (.misuse s!"invalid value '{value}' for '--{spec.name}'")

/-- Reads a row of short options. -/
def readShort (specs : List OptionSpec) (given : Given) : List Char → Except Stop Given
  | [] => .ok given
  | c :: rest =>
    match specs.find? fun spec => spec.short == some c with
    | some { name, kind := .flag, .. } =>
      match given.note name "" with
      | .ok given => readShort specs given rest
      | .error e => .error e
    | some { kind := .stop reason, .. } => .error reason
    | _ => .error (unexpected (String.ofList ['-', c]))

/-- A long option with what follows it: what is known after it, and the arguments that are left. -/
def readLong (specs : List OptionSpec) (given : Given) (body : List Char) (rest : List String) :
    Except Stop (Given × List String) :=
  let name := String.ofList (body.takeWhile (· != '='))
  let attached := body.dropWhile (· != '=')
  match specs.find? fun spec => spec.name == name with
  | none => .error (unexpected ("--" ++ name))
  | some spec =>
    match spec.kind with
    | .flag =>
      if attached.isEmpty then (given.note name "").map fun given => (given, rest)
      else .error (.misuse s!"unexpected value for '--{name}' found")
    | .stop reason =>
      if attached.isEmpty then .error reason
      else .error (.misuse s!"unexpected value for '--{name}' found")
    | .value isValid =>
      match attached, rest with
      | _ :: value, _ =>
        (noteValue given spec isValid (String.ofList value)).map fun given => (given, rest)
      | [], value :: rest =>
        if isOptionLike value then .error (.misuse s!"a value is required for '--{name}'")
        else (noteValue given spec isValid value).map fun given => (given, rest)
      | [], [] => .error (.misuse s!"a value is required for '--{name}'")

theorem length_of_readLong {specs : List OptionSpec} {given given' : Given} {body : List Char}
    {rest rest' : List String} (h : readLong specs given body rest = .ok (given', rest')) :
    rest'.length ≤ rest.length := by
  have key {x : Except Stop Given} {s : List String}
      (h : (x.map fun given => (given, s)) = .ok (given', rest')) : rest' = s := by
    cases x with
    | error e => cases h
    | ok g => cases h; rfl
  simp only [readLong] at h
  split at h
  · cases h
  · split at h
    · split at h
      · exact Nat.le_of_eq (congrArg List.length (key h))
      · cases h
    · split at h <;> cases h
    · split at h
      · exact Nat.le_of_eq (congrArg List.length (key h))
      · split at h
        · cases h
        · rw [key h]; simp
      · cases h

/-- Takes note of the words after `--`. -/
def readWords (rule : WordRule) (given : Given) (words : List String) : Except Stop Given :=
  match rule, words with
  | .many, _ => .ok { given with words := given.words ++ words }
  | _, [] => .ok given
  | _, word :: _ => .error (unexpected word)

/-- Reads options and words. The arguments from a command on are left over. -/
def readArguments (specs : List OptionSpec) (rule : WordRule) (given : Given)
    (args : List String) : Except Stop (Given × List String) :=
  match args with
  | [] => .ok (given, [])
  | arg :: rest =>
    match arg.toList with
    | ['-', '-'] => (readWords rule given rest).map fun given => (given, [])
    | '-' :: '-' :: body =>
      match h : readLong specs given body rest with
      | .error e => .error e
      | .ok (given, rest') =>
        have : rest'.length ≤ rest.length := length_of_readLong h
        readArguments specs rule given rest'
    | '-' :: c :: cs =>
      match readShort specs given (c :: cs) with
      | .error e => .error e
      | .ok given => readArguments specs rule given rest
    | _ =>
      match rule with
      | .none => .error (unexpected arg)
      | .many => readArguments specs rule { given with words := given.words ++ [arg] } rest
      | .command => .ok (given, arg :: rest)
  termination_by args.length

/-- Takes options that are not given from the environment. -/
def fromEnvironment (environment : String → Option String) (specs : List OptionSpec)
    (given : Given) : Except Stop Given :=
  specs.foldlM (fun given spec =>
    match spec.kind, spec.variableName.bind environment with
    | .value isValid, some value =>
      if given.has spec.name then .ok given else noteValue given spec isValid value
    | _, _ => .ok given) given

end PathLabels.Cli
