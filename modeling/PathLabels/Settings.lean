import PathLabels.PathPattern

/-!
# Settings of a rule table
-/

namespace PathLabels

/-- How several matching labels are resolved into a decision. -/
inductive Policy where
  /-- Every matching label, the one with the most files first. -/
  | all
  /-- The label with the most specific pattern first. -/
  | longestPrefix
  /-- A label only if it is the only one that matches. -/
  | unique
  deriving Repr, DecidableEq, Inhabited

/-- The name of a policy. -/
def Policy.name : Policy → String
  | .all => "all"
  | .longestPrefix => "longest-prefix"
  | .unique => "unique"

/-- The policies, in the order in which they are listed. -/
def Policy.every : List Policy := [.all, .longestPrefix, .unique]

/-- The policy with a name. -/
def Policy.ofName? (name : String) : Option Policy :=
  Policy.every.find? fun p => p.name == name

/-- Settings for a whole table. -/
structure Settings where
  policy : Policy := .longestPrefix
  /-- The greatest number of labels in a decision; zero means any number. -/
  maxLabels : Nat := 1
  /-- Whether a pull request is left alone that carries another label of the table. -/
  skipIfLabeled : Bool := true
  /-- The patterns of files that never count, as they are written. -/
  ignore : List String := []
  deriving Repr, DecidableEq, Inhabited

/-- The greatest number of labels in a decision, if there is one. -/
def Settings.cap (s : Settings) : Option Nat := if 0 < s.maxLabels then some s.maxLabels else none

end PathLabels
