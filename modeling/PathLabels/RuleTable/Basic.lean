import PathLabels.ConfigError

/-!
# Rule tables

A rule table is compiled once from its written form. Compiling trims the labels, reads every
pattern, and refuses a table with a blank label, two rules for one label, or a rule that owns
nothing. A compiled table carries the fact that its labels are distinct.
-/

namespace PathLabels

/-- One topic label and the paths that it owns. -/
structure LabelRule where
  label : String
  dirs : List PathPattern
  exclusions : List PathPattern

namespace LabelRule

/-- Whether one of the rule's exclusions matches a path. -/
def isExcluded (rule : LabelRule) (path : String) : Bool :=
  rule.exclusions.any fun p => p.isMatch path

/-- The greatest specificity among the patterns that match a path, if one does and no exclusion
does. -/
def bestMatch (rule : LabelRule) (path : String) : Option Specificity :=
  if rule.isExcluded path then none
  else Specificity.best? ((rule.dirs.filter fun p => p.isMatch path).map PathPattern.specificity)

end LabelRule

/-- A compiled rule table. -/
structure RuleTable where
  settings : Settings
  ignore : List PathPattern
  rules : List LabelRule
  labels_nodup : (rules.map LabelRule.label).Nodup

namespace RuleTable

/-- Whether a path is dropped before it is matched against the rules. -/
def isIgnored (table : RuleTable) (path : String) : Bool :=
  table.ignore.any fun p => p.isMatch path

/-- Whether a label is one of the table's. -/
def isKnownLabel (table : RuleTable) (label : String) : Bool :=
  table.rules.any fun r => r.label == label

/-- Reads a pattern of a table. -/
def compilePattern (raw : String) : Except ConfigError PathPattern :=
  (PathPattern.parse raw).mapError fun fault => .invalidPattern raw fault.message

/-- Reads patterns of a table, in order. -/
def compilePatterns (raws : List String) : Except ConfigError (List PathPattern) :=
  raws.mapM compilePattern

/-- Compiles the patterns of a rule, the owned paths first. -/
def compileOwned (label : String) (raw : RawRule) : Except ConfigError LabelRule := do
  let dirs ← compilePatterns raw.dirs
  let exclusions ← compilePatterns raw.exclusions
  return { label, dirs, exclusions }

/-- Compiles the rule with index `index`; `seen` are the labels before it. -/
def compileRule (seen : List String) (index : Nat) (raw : RawRule) :
    Except ConfigError LabelRule :=
  let label := Text.trim raw.label
  if label.isEmpty then .error (.emptyLabel index)
  else if label ∈ seen then .error (.duplicateLabel label)
  else if raw.dirs.isEmpty then .error (.noPatterns label)
  else compileOwned label raw

/-- Compiles rules in order, from index `index` on. -/
def compileRules (seen : List String) (index : Nat) :
    List RawRule → Except ConfigError (List LabelRule)
  | [] => .ok []
  | raw :: raws =>
    match compileRule seen index raw with
    | .error e => .error e
    | .ok rule =>
      match compileRules (rule.label :: seen) (index + 1) raws with
      | .error e => .error e
      | .ok rules => .ok (rule :: rules)

theorem label_of_compileOwned {label : String} {raw : RawRule} {rule : LabelRule}
    (h : compileOwned label raw = .ok rule) : rule.label = label := by
  rw [compileOwned] at h
  cases hd : compilePatterns raw.dirs with
  | error e => simp [hd, bind, Except.bind] at h
  | ok dirs =>
    cases he : compilePatterns raw.exclusions with
    | error e => simp [hd, he, bind, Except.bind] at h
    | ok exclusions =>
      simp only [hd, he, bind, Except.bind, pure, Except.pure, Except.ok.injEq] at h
      rw [← h]

theorem label_of_compileRule {seen : List String} {index : Nat} {raw : RawRule}
    {rule : LabelRule} (h : compileRule seen index raw = .ok rule) :
    rule.label = Text.trim raw.label ∧ rule.label ∉ seen := by
  simp only [compileRule] at h
  split at h
  · cases h
  · split at h
    · cases h
    · rename_i hseen
      split at h
      · cases h
      · rw [label_of_compileOwned h]
        exact ⟨rfl, hseen⟩

/-- The labels of compiled rules are distinct from each other and from those before them. -/
theorem labels_of_compileRules {seen : List String} {index : Nat} {raws : List RawRule}
    {rules : List LabelRule} (h : compileRules seen index raws = .ok rules) :
    (rules.map LabelRule.label).Nodup ∧ ∀ rule ∈ rules, rule.label ∉ seen := by
  induction raws generalizing seen index rules with
  | nil => cases h; simp
  | cons raw raws ih =>
    simp only [compileRules] at h
    split at h
    · cases h
    · rename_i rule hrule
      split at h
      · cases h
      · rename_i rules' hrules
        cases h
        obtain ⟨hnodup, hfresh⟩ := ih hrules
        refine ⟨?_, ?_⟩
        · simp only [List.map_cons, List.nodup_cons, List.mem_map, not_exists, not_and]
          exact ⟨fun r hr heq => hfresh r hr (by simp [heq]), hnodup⟩
        · intro r hr
          rcases List.mem_cons.mp hr with rfl | hr
          · exact (label_of_compileRule hrule).2
          · exact fun hmem => hfresh r hr (List.mem_cons_of_mem _ hmem)

/-- Compiles a table: first the patterns to ignore, then rule by rule. -/
def compile (raw : RawTable) : Except ConfigError RuleTable :=
  match compilePatterns raw.settings.ignore with
  | .error e => .error e
  | .ok ignore =>
    match h : compileRules [] 0 raw.rules with
    | .error e => .error e
    | .ok rules =>
      .ok { settings := raw.settings, ignore, rules, labels_nodup := (labels_of_compileRules h).1 }

/-- Reads a rule table from its text; `origin` names the text in faults. -/
def ofText (text : String) (origin : String) : Except ConfigError RuleTable :=
  match Toml.Table.ofText? text with
  | none => .error (.parse origin .syntaxFault)
  | some document =>
    match RawTable.ofDocument document with
    | .error fault => .error (.parse origin (.schema fault))
    | .ok raw => compile raw

/-- Reads a rule table from what reading its file gave. -/
def ofFile (path : String) (contents : Except IoError (List UInt8)) :
    Except ConfigError RuleTable :=
  match contents with
  | .error e => .error (.read path e)
  | .ok bytes =>
    match Text.decode bytes with
    | .error _ => .error (.read path .notText)
    | .ok text => ofText text path

end RuleTable

end PathLabels
