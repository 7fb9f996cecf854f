import PathLabels.RuleTable.Basic

/-!
# Stale patterns

A literal pattern is stale if nothing stands at its path. Such patterns are what the renaming of a
directory leaves behind. A glob names no path, and neither does a pattern of files to ignore stand
for anything that has to be there.
-/

namespace PathLabels

/-- A pattern of a rule with the label of the rule. -/
structure LabelledPattern where
  label : String
  pattern : PathPattern

/-- The patterns of all rules in order, the owned paths of a rule before its exclusions. -/
def RuleTable.patterns (table : RuleTable) : List LabelledPattern :=
  table.rules.flatMap fun rule => (rule.dirs ++ rule.exclusions).map fun p => ⟨rule.label, p⟩

/-- Whether the path that a pattern names is missing, where `hasPath` tells whether components lead
to anything. -/
def PathPattern.isMissing {m : Type → Type} [Monad m] (hasPath : List String → m Bool)
    (p : PathPattern) : m Bool :=
  match p.literalComponents? with
  | some components => return !(← hasPath components)
  | none => return false

/-- The label and the written form of each pattern that names a missing path. -/
def RuleTable.missingPaths {m : Type → Type} [Monad m] (hasPath : List String → m Bool)
    (table : RuleTable) : m (List (String × String)) := do
  let missing ← table.patterns.filterM fun e => e.pattern.isMissing hasPath
  return missing.map fun e => (e.label, e.pattern.raw)

end PathLabels
