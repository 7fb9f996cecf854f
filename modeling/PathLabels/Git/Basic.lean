import PathLabels.ChangeSet
import PathLabels.ConfigError

/-!
# Changed files by git

The paths that a pull request changes are those that differ between its head and the merge base of
its head and its base. Both references are resolved to commits first, so that a reference that
names nothing is reported as such.
-/

namespace PathLabels

/-- What a finished git process left behind. -/
structure GitOutput where
  /-- Whether the process ended with success. -/
  success : Bool
  stdout : List UInt8 := []
  stderr : List UInt8 := []
  deriving Repr, DecidableEq

/-- A git that runs in one directory: it takes arguments, and may be impossible to start. -/
structure Git (m : Type → Type) where
  run : (args : List String) → m (Except IoError GitOutput)

/-- Why the changed files of a pull request are not known. -/
inductive FetchError where
  /-- Git could not be started. -/
  | gitUnavailable (cause : IoError)
  | baseUnresolvable (reference stderr : String)
  | headUnresolvable (reference stderr : String)
  | noMergeBase (base head : String)
  | diffFailed (stderr : String)
  /-- Git wrote something that is not text. -/
  | invalidOutput (cause : Text.Utf8Error)
  deriving Repr, DecidableEq

namespace FetchError

/-- The text shown for a fault. -/
def message : FetchError → String
  | gitUnavailable cause => s!"failed to run git: {cause.message}"
  | baseUnresolvable reference stderr =>
    s!"base reference '{reference}' cannot be resolved: {stderr}"
  | headUnresolvable reference stderr =>
    s!"head reference '{reference}' cannot be resolved: {stderr}"
  | noMergeBase base head => s!"no merge base between '{base}' and '{head}'"
  | diffFailed stderr => s!"git diff failed: {stderr}"
  | invalidOutput cause => s!"git returned non UTF-8 output: {cause.message}"

/-- The text of the fault behind a fault, if there is one. -/
def cause? : FetchError → Option String
  | gitUnavailable cause => some cause.message
  | invalidOutput cause => some cause.message
  | _ => none

end FetchError

/-- A way to learn which paths a pull request changes. -/
abbrev ChangeSource (m : Type → Type) := (pr : Nat) → m (Except FetchError ChangeSet)

namespace Git

variable {m : Type → Type} [Monad m]

/-- The commit that a reference is resolved to, as an argument for git. -/
def commitOf (reference : String) : String := reference ++ "^\x7bcommit\x7d"

/-- Output that need not be text, as a trimmed text. -/
def trimmed (bytes : List UInt8) : String := Text.trim (Text.decodeLossy bytes)

/-- Output that has to be text. -/
def textOf (bytes : List UInt8) : Except FetchError String :=
  (Text.decode bytes).mapError .invalidOutput

/-- Runs git where a failure to start it is reported as such. -/
def start (git : Git m) (args : List String) : ExceptT FetchError m GitOutput := do
  match ← (git.run args : m _) with
  | .ok output => return output
  | .error e => throw (.gitUnavailable e)

/-- The commit that a reference names; `fault` makes the fault if it names none. A git that does
not start leaves the reference without a commit too, and the fault says why. -/
def resolve (git : Git m) (fault : String → FetchError) (reference : String) :
    ExceptT FetchError m String := do
  match ← (git.run ["rev-parse", "--verify", "--quiet", commitOf reference] : m _) with
  | .ok output =>
    if output.success then return trimmed output.stdout else throw (fault (trimmed output.stderr))
  | .error e => throw (fault (FetchError.gitUnavailable e).message)

/-- The entries of a list in which each entry is ended by a NUL. -/
def entries (text : String) : List String := (text.toList.splitOn '\x00').map String.ofList

/-- The changes between the head and the merge base of head and base. -/
def changes (git : Git m) (base head : String) : ExceptT FetchError m ChangeSet := do
  discard (git.start ["--version"])
  let baseCommit ← git.resolve (.baseUnresolvable base) base
  let headCommit ← git.resolve (.headUnresolvable head) head
  let found ← git.start ["merge-base", baseCommit, headCommit]
  if !found.success then throw (.noMergeBase base head)
  let mergeBase := Text.trim (← liftExcept (textOf found.stdout))
  let diff ← git.start ["diff", "--name-only", "--no-renames", "-z", mergeBase, headCommit]
  if !diff.success then throw (.diffFailed (trimmed diff.stderr))
  return ChangeSet.ofList (entries (← liftExcept (textOf diff.stdout)))
where
  liftExcept {α : Type} (r : Except FetchError α) : ExceptT FetchError m α := ExceptT.mk (pure r)

/-- The changed files of a checkout; the number of the pull request makes no difference. -/
def source (git : Git m) (base head : String) : ChangeSource m :=
  fun _ => (git.changes base head).run

end Git

end PathLabels
