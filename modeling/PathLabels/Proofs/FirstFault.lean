import PathLabels.Proofs.Compiling
import PathLabels.Proofs.Spelling

/-!
# The first fault of a written table

Compiling stops at the first fault it meets, and a table may have many. Here all of them are listed,
in the order in which they count: those of the patterns to ignore, then rule by rule those of the
label, of the missing patterns, and of the patterns that are there. Compiling then gives the first
of the list, and a table if the list is empty. That it is empty is said once more without an order:
every text is a pattern, every rule has a label of its own, and every rule owns something.
-/

namespace PathLabels

/-! ## Faults of readings -/

section Faults

variable {ε α β : Type} {x : Except ε α} {e : ε}

/-- The fault with which a reading ends, if it does not end with a value. -/
def faultOf : Except ε α → Option ε
  | .ok _ => none
  | .error e => some e

theorem faultOf_eq_some_iff : faultOf x = some e ↔ x = .error e := by
  cases x with
  | ok a => exact ⟨nofun, nofun⟩
  | error e' =>
    exact ⟨fun h => congrArg _ (Option.some.inj h), fun h => congrArg _ (Except.error.inj h)⟩

theorem faultOf_eq_none_iff : faultOf x = none ↔ ∃ a, x = .ok a := by
  cases x with
  | ok a => exact ⟨fun _ => ⟨a, rfl⟩, fun _ => rfl⟩
  | error e' => exact ⟨nofun, nofun⟩

/-- Of two readings one after the other the fault of the first one counts. -/
theorem faultOf_bind {g : α → Except ε β} (second : Option ε)
    (h : ∀ a, x = .ok a → faultOf (g a) = second) : faultOf (x >>= g) = (faultOf x).or second := by
  cases x with
  | ok a => exact h a rfl
  | error e => rfl

/-- Of the faults of the items of a list the first one counts. -/
theorem faultOf_mapM (f : α → Except ε β) (as : List α) :
    faultOf (as.mapM f) = (as.filterMap fun a => faultOf (f a)).head? := by
  induction as with
  | nil => rfl
  | cons a as ih =>
    rw [List.mapM_cons, faultOf_bind (as.filterMap fun a => faultOf (f a)).head?]
    · rw [List.filterMap_cons]
      cases f a with
      | ok b => rfl
      | error e => rfl
    · intro b _
      rw [faultOf_bind none fun bs _ => rfl, ih, Option.or_none]

end Faults

/-! ## The faults of a written table -/

/-- The label of a written rule, without the blanks around it. -/
def RawRule.topic (raw : RawRule) : String := Text.trim raw.label

/-- The fault of a text that is no pattern. -/
def RuleTable.patternFault? (text : String) : Option ConfigError :=
  match PathPattern.parse text with
  | .ok _ => none
  | .error fault => some (.invalidPattern text fault.message)

/-- What is wrong with a written rule that comes after others. -/
def RawRule.faults (earlier : List RawRule) (raw : RawRule) : List ConfigError :=
  (if raw.topic = "" then [.emptyLabel earlier.length] else [])
    ++ (if raw.topic ∈ earlier.map RawRule.topic then [.duplicateLabel raw.topic] else [])
    ++ (if raw.dirs = [] then [.noPatterns raw.topic] else [])
    ++ raw.dirs.filterMap RuleTable.patternFault?
    ++ raw.exclusions.filterMap RuleTable.patternFault?

/-- What is wrong with written rules that come after others. -/
def RawRule.faultsAfter (earlier : List RawRule) : List RawRule → List ConfigError
  | [] => []
  | raw :: later => raw.faults earlier ++ faultsAfter (earlier ++ [raw]) later

/-- What is wrong with a written table, in the order in which it counts. -/
def RawTable.faults (raw : RawTable) : List ConfigError :=
  raw.settings.ignore.filterMap RuleTable.patternFault? ++ RawRule.faultsAfter [] raw.rules

namespace RuleTable

theorem faultOf_compilePattern (text : String) :
    faultOf (compilePattern text) = patternFault? text := by
  unfold compilePattern patternFault?
  cases PathPattern.parse text with
  | ok p => rfl
  | error fault => rfl

theorem faultOf_compilePatterns (texts : List String) :
    faultOf (compilePatterns texts) = (texts.filterMap patternFault?).head? := by
  unfold compilePatterns
  rw [faultOf_mapM]
  simp only [faultOf_compilePattern]

theorem faultOf_compileOwned (label : String) (raw : RawRule) :
    faultOf (compileOwned label raw)
      = (raw.dirs.filterMap patternFault? ++ raw.exclusions.filterMap patternFault?).head? := by
  unfold compileOwned
  rw [List.head?_append, ← faultOf_compilePatterns, ← faultOf_compilePatterns]
  refine faultOf_bind _ fun dirs _ => ?_
  rw [faultOf_bind none fun exclusions _ => rfl, Option.or_none]

variable {seen : List String} {earlier : List RawRule}

/-- A rule is refused for its first fault. -/
theorem faultOf_compileRule (hseen : ∀ l, l ∈ seen ↔ l ∈ earlier.map RawRule.topic)
    (raw : RawRule) :
    faultOf (compileRule seen earlier.length raw) = (raw.faults earlier).head? := by
  have hlabel : Text.trim raw.label = raw.topic := rfl
  unfold compileRule RawRule.faults
  simp only [hlabel, hseen, String.isEmpty_iff, List.isEmpty_iff]
  by_cases hempty : raw.topic = ""
  · rw [if_pos hempty, if_pos hempty]
    rfl
  rw [if_neg hempty, if_neg hempty]
  by_cases hknown : raw.topic ∈ earlier.map RawRule.topic
  · rw [if_pos hknown, if_pos hknown]
    rfl
  rw [if_neg hknown, if_neg hknown]
  by_cases hdirs : raw.dirs = []
  · rw [if_pos hdirs, if_pos hdirs]
    rfl
  · rw [if_neg hdirs, if_neg hdirs]
    exact faultOf_compileOwned raw.topic raw

/-- Rules are refused for the first fault of the first of them that has one. -/
theorem faultOf_compileRules (seen : List String) (earlier : List RawRule)
    (hseen : ∀ l, l ∈ seen ↔ l ∈ earlier.map RawRule.topic) (raws : List RawRule) :
    faultOf (compileRules seen earlier.length raws) = (RawRule.faultsAfter earlier raws).head? := by
  induction raws generalizing seen earlier with
  | nil => rfl
  | cons raw raws ih =>
    rw [RawRule.faultsAfter, List.head?_append, ← faultOf_compileRule hseen, compileRules]
    cases hrule : compileRule seen earlier.length raw with
    | error e => rfl
    | ok rule =>
      have hseen' : ∀ l, l ∈ rule.label :: seen ↔ l ∈ (earlier ++ [raw]).map RawRule.topic := by
        intro l
        rw [(label_of_compileRule hrule).1, List.mem_cons, hseen, List.map_append, List.mem_append,
          List.map_singleton, List.mem_singleton, or_comm]
        rfl
      have hrest := ih (rule.label :: seen) (earlier ++ [raw]) hseen'
      rw [List.length_append, List.length_singleton] at hrest
      rw [← hrest]
      dsimp only
      cases compileRules (rule.label :: seen) (earlier.length + 1) raws with
      | error e => rfl
      | ok rules => rfl

/-- **A table is refused for its first fault.** -/
theorem faultOf_compile (raw : RawTable) : faultOf (compile raw) = raw.faults.head? := by
  have hrules : faultOf (compileRules [] 0 raw.rules)
      = (RawRule.faultsAfter [] raw.rules).head? :=
    faultOf_compileRules [] [] (fun _ => Iff.rfl) raw.rules
  unfold RawTable.faults
  rw [List.head?_append, ← faultOf_compilePatterns, ← hrules, compile]
  cases compilePatterns raw.settings.ignore with
  | error e => rfl
  | ok ignore =>
    dsimp only
    split
    · rename_i e he
      rw [he]
      rfl
    · rename_i rules hok
      have hnone : faultOf (compileRules [] 0 raw.rules) = none :=
        faultOf_eq_none_iff.mpr ⟨rules, hok⟩
      rw [hnone]
      rfl

end RuleTable

/-! ## Well-formed tables -/

/-- Whether a text is a pattern. -/
def PathPattern.IsPattern (text : String) : Prop := ∃ p, PathPattern.parse text = .ok p

/-- A written table without a fault. -/
structure RawTable.WellFormed (raw : RawTable) : Prop where
  ignore : ∀ text ∈ raw.settings.ignore, PathPattern.IsPattern text
  labels : ∀ rule ∈ raw.rules, rule.topic ≠ ""
  distinct : (raw.rules.map RawRule.topic).Nodup
  owned : ∀ rule ∈ raw.rules, rule.dirs ≠ []
  dirs : ∀ rule ∈ raw.rules, ∀ text ∈ rule.dirs, PathPattern.IsPattern text
  exclusions : ∀ rule ∈ raw.rules, ∀ text ∈ rule.exclusions, PathPattern.IsPattern text

theorem RuleTable.filterMap_patternFault?_eq_nil_iff {texts : List String} :
    texts.filterMap patternFault? = [] ↔ ∀ text ∈ texts, PathPattern.IsPattern text := by
  rw [List.filterMap_eq_nil_iff]
  refine forall₂_congr fun text _ => ?_
  unfold patternFault? PathPattern.IsPattern
  cases PathPattern.parse text with
  | ok p => exact ⟨fun _ => ⟨p, rfl⟩, fun _ => rfl⟩
  | error fault => exact ⟨nofun, nofun⟩

namespace RawRule

/-- A written rule has no fault of its own. -/
structure Sound (raw : RawRule) : Prop where
  label : raw.topic ≠ ""
  owned : raw.dirs ≠ []
  dirs : ∀ text ∈ raw.dirs, PathPattern.IsPattern text
  exclusions : ∀ text ∈ raw.exclusions, PathPattern.IsPattern text

theorem faults_eq_nil_iff {earlier : List RawRule} {raw : RawRule} :
    raw.faults earlier = [] ↔ raw.Sound ∧ raw.topic ∉ earlier.map topic := by
  unfold faults
  simp only [List.append_eq_nil_iff, ite_eq_right_iff, List.cons_ne_nil, imp_false,
    RuleTable.filterMap_patternFault?_eq_nil_iff]
  constructor
  · rintro ⟨⟨⟨⟨hlabel, hfresh⟩, howned⟩, hdirs⟩, hexclusions⟩
    exact ⟨⟨hlabel, howned, hdirs, hexclusions⟩, hfresh⟩
  · rintro ⟨hsound, hfresh⟩
    exact ⟨⟨⟨⟨hsound.label, hfresh⟩, hsound.owned⟩, hsound.dirs⟩, hsound.exclusions⟩

/-- No rule has a label of a rule before it exactly if the labels are distinct. -/
theorem faultsAfter_eq_nil_iff {earlier raws : List RawRule} :
    faultsAfter earlier raws = []
      ↔ (∀ raw ∈ raws, raw.Sound) ∧ (raws.map topic).Nodup
        ∧ ∀ raw ∈ raws, raw.topic ∉ earlier.map topic := by
  induction raws generalizing earlier with
  | nil => simp [faultsAfter]
  | cons raw raws ih =>
    rw [faultsAfter, List.append_eq_nil_iff, faults_eq_nil_iff, ih]
    simp only [List.forall_mem_cons, List.map_cons, List.nodup_cons, List.map_append,
      List.mem_append, List.map_nil, List.mem_singleton, not_or, List.mem_map]
    constructor
    · rintro ⟨⟨hsound, hfresh⟩, hrest, hnodup, hlater⟩
      refine ⟨⟨hsound, hrest⟩, ⟨?_, hnodup⟩, hfresh, fun later hmem => (hlater later hmem).1⟩
      rintro ⟨later, hmem, heq⟩
      exact (hlater later hmem).2 heq
    · rintro ⟨⟨hsound, hrest⟩, ⟨hnew, hnodup⟩, hfresh, hlater⟩
      exact ⟨⟨hsound, hfresh⟩, hrest, hnodup,
        fun later hmem => ⟨hlater later hmem, fun heq => hnew ⟨later, hmem, heq⟩⟩⟩

end RawRule

/-- **A table without a fault is a well-formed one.** -/
theorem RawTable.faults_eq_nil_iff {raw : RawTable} : raw.faults = [] ↔ raw.WellFormed := by
  unfold faults
  rw [List.append_eq_nil_iff, RuleTable.filterMap_patternFault?_eq_nil_iff,
    RawRule.faultsAfter_eq_nil_iff]
  constructor
  · rintro ⟨hignore, hsound, hnodup, -⟩
    exact ⟨hignore, fun rule h => (hsound rule h).label, hnodup,
      fun rule h => (hsound rule h).owned, fun rule h => (hsound rule h).dirs,
      fun rule h => (hsound rule h).exclusions⟩
  · intro h
    refine ⟨h.ignore, fun rule hrule => ?_, h.distinct, fun rule _ => List.not_mem_nil⟩
    exact ⟨h.labels rule hrule, h.owned rule hrule, h.dirs rule hrule, h.exclusions rule hrule⟩

/-! ## What a table stands for -/

/-- A pattern is the one that a text stands for, and it keeps the text. -/
structure PathPattern.StandsFor (p : PathPattern) (text : String) : Prop where
  parse : PathPattern.parse text = .ok p
  raw : p.raw = text

/-- A rule has the trimmed label of a written rule and, in its order, the patterns. -/
structure LabelRule.StandsFor (rule : LabelRule) (raw : RawRule) : Prop where
  label : rule.label = Text.trim raw.label
  dirs : List.Forall₂ PathPattern.StandsFor rule.dirs raw.dirs
  exclusions : List.Forall₂ PathPattern.StandsFor rule.exclusions raw.exclusions

/-- A table has the settings of a written table and, in its order, the patterns and the rules. -/
structure RuleTable.StandsFor (table : RuleTable) (raw : RawTable) : Prop where
  settings : table.settings = raw.settings
  ignore : List.Forall₂ PathPattern.StandsFor table.ignore raw.settings.ignore
  rules : List.Forall₂ LabelRule.StandsFor table.rules raw.rules

namespace PathPattern

theorem raw_of_parse {text : String} {p : PathPattern} (h : parse text = .ok p) :
    p.raw = text := by
  rw [parse_eq] at h
  split at h
  · cases h
  split at h
  · rw [ofGlobText_eq] at h
    cases hread : readBoth (dropTrailingSlashes (textOf text)) with
    | error fault => rw [hread] at h; cases h
    | ok globs => rw [hread] at h; cases h; rfl
  split at h
  · cases h
  · cases h
    rfl

theorem standsFor_of_compilePattern {text : String} {p : PathPattern}
    (h : RuleTable.compilePattern text = .ok p) : p.StandsFor text := by
  have hparse := RuleTable.parse_of_compilePattern h
  exact ⟨hparse, raw_of_parse hparse⟩

theorem standsFor_of_compilePatterns {texts : List String} {ps : List PathPattern}
    (h : RuleTable.compilePatterns texts = .ok ps) : List.Forall₂ StandsFor ps texts :=
  ((forall₂_of_mapM_ok h).imp fun _ _ => standsFor_of_compilePattern).flip

end PathPattern

theorem LabelRule.CompiledFrom.standsFor {rule : LabelRule} {raw : RawRule}
    (h : rule.CompiledFrom raw) : rule.StandsFor raw where
  label := h.label
  dirs := PathPattern.standsFor_of_compilePatterns h.dirs
  exclusions := PathPattern.standsFor_of_compilePatterns h.exclusions

theorem RuleTable.CompiledFrom.standsFor {table : RuleTable} {raw : RawTable}
    (h : table.CompiledFrom raw) : table.StandsFor raw where
  settings := h.settings
  ignore := PathPattern.standsFor_of_compilePatterns h.ignore
  rules := (h.rules.imp fun _ _ => LabelRule.CompiledFrom.standsFor).flip

/-- The labels of a table are the trimmed ones of the written table. -/
theorem RuleTable.StandsFor.isKnownLabel_iff {table : RuleTable} {raw : RawTable}
    (h : table.StandsFor raw) (l : String) :
    table.isKnownLabel l = true ↔ ∃ rule ∈ raw.rules, Text.trim rule.label = l := by
  rw [isKnownLabel, List.any_eq_true]
  constructor
  · rintro ⟨rule, hrule, heq⟩
    obtain ⟨rawRule, hraw, hstands⟩ := exists_right_of_mem h.rules hrule
    exact ⟨rawRule, hraw, hstands.label.symm.trans (beq_iff_eq.mp heq)⟩
  · rintro ⟨rawRule, hraw, rfl⟩
    obtain ⟨rule, hrule, hstands⟩ := exists_left_of_mem h.rules hraw
    exact ⟨rule, hrule, beq_iff_eq.mpr hstands.label⟩

namespace RuleTable

/--
**Compiling accepts the well-formed tables and names the first fault of the others.**

There is a table exactly if every text is a pattern, no label is blank, no two are the same once the
blanks around them are gone, and every rule owns something. The table then stands for the written
one, rule by rule and pattern by pattern, and knows the labels of its rules and no others. If there
is no table, the fault is the first of those listed.
-/
theorem compile_finds_first_fault (raw : RawTable) :
    ((∃ table, compile raw = .ok table) ↔ raw.WellFormed)
      ∧ (∀ table, compile raw = .ok table → table.StandsFor raw
          ∧ ∀ l, table.isKnownLabel l = true ↔ ∃ rule ∈ raw.rules, Text.trim rule.label = l)
      ∧ ∀ e, compile raw = .error e ↔ raw.faults.head? = some e := by
  have hfault := faultOf_compile raw
  refine ⟨?_, fun table h => ?_, fun e => ?_⟩
  · rw [← faultOf_eq_none_iff, hfault, List.head?_eq_none_iff, RawTable.faults_eq_nil_iff]
  · have hstands := (compiledFrom_of_compile h).standsFor
    exact ⟨hstands, hstands.isKnownLabel_iff⟩
  · rw [← faultOf_eq_some_iff, hfault]

/-- One rule is well formed. Of two more the first has the same label and owns nothing, the second
has none, and both hold texts that are no patterns. -/
theorem compile_finds_first_fault_duplicate :
    let rule : RawRule := ⟨" t-order", ["Mathlib/Order/"], ["Mathlib/Order/*.md"]⟩
    let sound : RawTable := { rules := [rule] }
    let faulty : RawTable := { rules := [rule, ⟨"t-order\t", [], ["./"]⟩, ⟨" ", ["/"], []⟩] }
    sound.WellFormed
      ∧ (∃ table, compile sound = .ok table ∧ table.StandsFor sound
        ∧ table.isKnownLabel "t-order" = true ∧ table.isKnownLabel " t-order" = false)
      ∧ faulty.faults = [.duplicateLabel "t-order", .noPatterns "t-order",
          .invalidPattern "./" "pattern is empty", .emptyLabel 2,
          .invalidPattern "/" "pattern names no path component"]
      ∧ compile faulty = .error (.duplicateLabel "t-order") := by
  intro rule sound faulty
  obtain ⟨hwellFormed, htable, -⟩ := compile_finds_first_fault sound
  obtain ⟨-, -, herror⟩ := compile_finds_first_fault faulty
  have hsound : sound.WellFormed := RawTable.faults_eq_nil_iff.mp (by decide +kernel)
  obtain ⟨table, hok⟩ := hwellFormed.mpr hsound
  obtain ⟨hstands, hknown⟩ := htable table hok
  have hfaults : faulty.faults = [.duplicateLabel "t-order", .noPatterns "t-order",
      .invalidPattern "./" "pattern is empty", .emptyLabel 2,
      .invalidPattern "/" "pattern names no path component"] := by
    decide +kernel
  refine ⟨hsound, ⟨table, hok, hstands, ?_, ?_⟩, hfaults, ?_⟩
  · exact (hknown _).mpr ⟨rule, List.mem_cons_self, by decide⟩
  · rw [← Bool.not_eq_true, hknown]
    decide
  · exact (herror _).mpr (by rw [hfaults]; rfl)

end RuleTable

end PathLabels
