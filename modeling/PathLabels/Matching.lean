import PathLabels.ChangeSet
import PathLabels.OrderedMap
import PathLabels.RuleTable.Basic

/-!
# Matching

Every changed file is matched against every rule. The result lists, for each label, the files that
count towards it and the best specificity among its matches, and the files that count towards no
label.
-/

namespace PathLabels

/-- The files that count towards one label. -/
structure LabelMatch where
  files : List String
  /-- The best specificity among the patterns that matched. -/
  specificity : Specificity
  deriving Repr, DecidableEq

/-- The matches of a change set. -/
structure MatchResult where
  labels : OrderedMap LabelMatch := .empty
  unmatched : List String := []
  ignored : List String := []

namespace MatchResult

/-- Whether no label matches. -/
def isEmpty (result : MatchResult) : Bool := result.labels.isEmpty

/-- Adds a file to a label. -/
def record (labels : OrderedMap LabelMatch) (label path : String) (s : Specificity) :
    OrderedMap LabelMatch :=
  labels.alter label fun
    | none => ⟨[path], s⟩
    | some found => ⟨found.files ++ [path], found.specificity.max s⟩

/-- Adds a file to the label of each rule that matches it. -/
def recordRules (labels : OrderedMap LabelMatch) (path : String) (rules : List LabelRule) :
    OrderedMap LabelMatch :=
  rules.foldl (fun labels rule =>
    match rule.bestMatch path with
    | none => labels
    | some s => record labels rule.label path s) labels

/-- Adds a file to the result. -/
def add (table : RuleTable) (result : MatchResult) (path : String) : MatchResult :=
  if table.isIgnored path then { result with ignored := result.ignored ++ [path] }
  else if table.rules.all fun rule => (rule.bestMatch path).isNone then
    { result with unmatched := result.unmatched ++ [path] }
  else { result with labels := recordRules result.labels path table.rules }

end MatchResult

/-- Matches a change set against a table. -/
def ChangeSet.evaluate (changes : ChangeSet) (table : RuleTable) : MatchResult :=
  changes.paths.foldl (MatchResult.add table) {}

end PathLabels
