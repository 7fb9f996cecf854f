import PathLabels.Git.Basic

/-!
# Scripted git

A git whose answers are laid down beforehand, one for each step of finding the changed files. An
answer may take the checkout away, and no git starts without a checkout or with a NUL in one of its
arguments.
-/

namespace PathLabels

/-- One answer of a scripted git. -/
structure GitAnswer where
  output : GitOutput := { success := true }
  /-- Whether the checkout is gone after this answer. -/
  removesCheckout : Bool := false
  deriving Repr, DecidableEq, Inhabited

/-- The state of a scripted git. -/
structure GitScript where
  version : GitAnswer := {}
  baseCommit : GitAnswer := {}
  headCommit : GitAnswer := {}
  mergeBase : GitAnswer := {}
  diff : GitAnswer := {}
  /-- Whether there is a checkout to run in. -/
  hasCheckout : Bool := true
  /-- The arguments of the runs so far, in order. -/
  calls : List (List String) := []

namespace GitScript

/-- Whether a run resolves a reference. -/
def resolves (args : List String) : Bool := args.head? == some "rev-parse"

/-- The answer to a run. The first reference to be resolved is the base, the next the head. -/
def answer (s : GitScript) (args : List String) : GitAnswer :=
  match args.head? with
  | some "--version" => s.version
  | some "rev-parse" => if s.calls.any resolves then s.headCommit else s.baseCommit
  | some "merge-base" => s.mergeBase
  | _ => s.diff

/-- Runs git. -/
def run (s : GitScript) (args : List String) : Except IoError GitOutput × GitScript :=
  if args.any fun arg => arg.toList.contains '\x00' then (.error .containsNul, s)
  else if s.hasCheckout then
    let a := s.answer args
    (.ok a.output, { s with calls := s.calls ++ [args], hasCheckout := !a.removesCheckout })
  else (.error .notFound, s)

/-- The scripted git. -/
def git : Git (StateM GitScript) := ⟨fun args s => s.run args⟩

end GitScript

end PathLabels
