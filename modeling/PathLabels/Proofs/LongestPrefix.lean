import Mathlib.Data.List.Nodup
import PathLabels.Proofs.ByteOrder
import PathLabels.Proofs.Components
import PathLabels.Proofs.EffectiveMatch
import PathLabels.Proofs.Ranking

/-!
# The most specific match wins

Under the policy `longestPrefix` the first label of a decision is that of the most specific effective
match in the whole table.

A path pattern below another one is more specific, so the rule for a subtopic comes before the rule
for its topic.
-/

namespace PathLabels

variable {table : RuleTable} {changes : ChangeSet} {rule : LabelRule} {path : String}
  {pattern : PathPattern} {found : LabelMatch}

/-! ## The winner -/

/-- A rule has an effective match that is as specific as any in the table. -/
def ReachesTop (table : RuleTable) (changes : ChangeSet) (rule : LabelRule) : Prop :=
  ∃ path pattern, EffectiveMatch table changes path rule pattern
    ∧ ∀ path' rule' pattern', EffectiveMatch table changes path' rule' pattern' →
        pattern'.specificity ≤ pattern.specificity

/-- The rule that wins: of those that reach the top the one with the most files, and of these the
one with the bytewise smallest label. -/
structure IsWinner (table : RuleTable) (changes : ChangeSet) (rule : LabelRule) : Prop where
  top : ReachesTop table changes rule
  first : ∀ rule', ReachesTop table changes rule' →
    (effectiveFiles table changes rule').length < (effectiveFiles table changes rule).length
      ∨ ((effectiveFiles table changes rule').length = (effectiveFiles table changes rule).length
          ∧ Text.bytes rule.label ≤ Text.bytes rule'.label)

/-- A path pattern names a path strictly below that of another one. -/
def PathPattern.Below (pattern upper : PathPattern) : Prop :=
  ∃ components upperComponents, pattern.literalComponents? = some components
    ∧ upper.literalComponents? = some upperComponents
    ∧ upperComponents <+: components ∧ upperComponents ≠ components

theorem PathPattern.Below.specificity_lt {upper : PathPattern} (h : pattern.Below upper) :
    upper.specificity < pattern.specificity := by
  obtain ⟨components, upperComponents, hpattern, hupper, hprefix, hne⟩ := h
  cases pattern with
  | glob raw exact below s => cases hpattern
  | literal raw components =>
    cases upper with
    | glob raw exact below s => cases hupper
    | literal raw' upperComponents =>
      cases hpattern
      cases hupper
      exact specificity_literal_lt hprefix hne

theorem specificity_le_of_bySpecificity {a b : Decision.Candidate}
    (h : Decision.bySpecificity a b = true) : b.2.specificity ≤ a.2.specificity := by
  rcases Decision.bySpecificity_iff.mp h with h | ⟨h, _⟩
  · exact Specificity.le_of_lt h
  · rw [h]
    exact Specificity.le_refl _

/-- The best candidate is that of the winner. -/
theorem isWinner_of_best (hfound : Found table changes rule found)
    (hbest : ∀ c ∈ (changes.evaluate table).labels.entries,
      Decision.bySpecificity (rule.label, found) c = true) : IsWinner table changes rule := by
  obtain ⟨path, pattern, heff, hs⟩ := hfound.reached
  refine ⟨⟨path, pattern, heff, fun path' rule' pattern' heff' => ?_⟩, ?_⟩
  · obtain ⟨found', hmem, hfound'⟩ := mem_labels_evaluate_of_effective heff'
    rw [hs]
    exact Specificity.le_trans (hfound'.greatest path' pattern' heff')
      (specificity_le_of_bySpecificity (hbest _ hmem))
  · rintro rule' ⟨path', pattern', heff', htop⟩
    obtain ⟨found', hmem, hfound'⟩ := mem_labels_evaluate_of_effective heff'
    -- both reach the top, so the number of files is what counts
    have hle : found.specificity ≤ found'.specificity := by
      rw [← hs]
      exact Specificity.le_trans (htop path rule pattern heff)
        (hfound'.greatest path' pattern' heff')
    rcases Decision.bySpecificity_iff.mp (hbest _ hmem) with hlt | ⟨_, hfiles⟩
    · exact absurd hlt (Specificity.not_lt_of_le hle)
    · rw [← hfound.files, ← hfound'.files, Text.bytes_le_bytes_iff]
      rcases Decision.byFiles_iff.mp hfiles with h | ⟨h, hlabel⟩
      · exact Or.inl h
      · exact Or.inr ⟨h.symm, hlabel⟩

/-- Two topics, the second below the first. -/
def RuleTable.nestedTopics : RuleTable where
  settings := {}
  ignore := []
  rules := [⟨"t-analysis", [.literal "Mathlib/Analysis" ["Mathlib", "Analysis"]], []⟩,
    ⟨"t-complex", [.literal "Mathlib/Analysis/Complex" ["Mathlib", "Analysis", "Complex"]], []⟩]
  labels_nodup := by decide

/--
**The most specific match wins.**

A decision is empty exactly if nothing matches effectively, and otherwise its first label is that of
the winner. A path pattern below another one is more specific, so a label never stands in a decision
without another one before it whose rule has a match below all of its own.
-/
theorem longestPrefix_winner (table : RuleTable) (changes : ChangeSet)
    (hpolicy : table.settings.policy = .longestPrefix) :
    ((changes.decision table).labels = []
        ↔ ∀ path rule pattern, ¬EffectiveMatch table changes path rule pattern)
      ∧ ((changes.decision table).labels ≠ [] →
          ∃ rule, IsWinner table changes rule
            ∧ (changes.decision table).labels.head? = some rule.label)
      ∧ (∀ pattern upper : PathPattern, pattern.Below upper →
          upper.specificity < pattern.specificity)
      ∧ ∀ (rule other : LabelRule) (path : String) (pattern : PathPattern),
          EffectiveMatch table changes path rule pattern → other ∈ table.rules →
          (∀ path' pattern', EffectiveMatch table changes path' other pattern' →
            pattern.Below pattern') →
          ∀ pre post, (changes.decision table).labels = pre ++ other.label :: post →
            rule.label ∈ pre := by
  refine ⟨?_, ?_, fun pattern upper h => h.specificity_lt, ?_⟩
  · rw [ChangeSet.decision, MatchResult.labels_decide_eq_nil_iff hpolicy]
    constructor
    · intro hnil path rule pattern heff
      obtain ⟨found, hmem, _⟩ := mem_labels_evaluate_of_effective heff
      rw [hnil] at hmem
      cases hmem
    · intro hnone
      refine List.eq_nil_iff_forall_not_mem.mpr fun ⟨label, found⟩ hc => ?_
      obtain ⟨rule, _, _, hfound⟩ := found_of_mem_labels_evaluate hc
      obtain ⟨path, pattern, heff, _⟩ := hfound.reached
      exact hnone path rule pattern heff
  · intro hne
    obtain ⟨label, rest, hlabels⟩ := List.exists_cons_of_ne_nil hne
    obtain ⟨found, hmem, hbest⟩ := MatchResult.exists_of_labels_decide hpolicy
      (hlabels.trans (List.nil_append _).symm)
    obtain ⟨rule, _, rfl, hfound⟩ := found_of_mem_labels_evaluate hmem
    refine ⟨rule, isWinner_of_best hfound fun c hc => ?_, by rw [hlabels]; rfl⟩
    exact (hbest c hc).resolve_left List.not_mem_nil
  · intro rule other path pattern heff hother hbelow pre post hlabels
    obtain ⟨found, hmem, hbest⟩ := MatchResult.exists_of_labels_decide hpolicy hlabels
    obtain ⟨other', hother', hlabel, hfound⟩ := found_of_mem_labels_evaluate hmem
    obtain rfl := List.inj_on_of_nodup_map table.labels_nodup hother' hother hlabel
    obtain ⟨found', hmem', hfound'⟩ := mem_labels_evaluate_of_effective heff
    -- the best match of the other rule is less specific than this one
    refine (hbest _ hmem').resolve_right fun hle => ?_
    obtain ⟨path', pattern', heff', hs⟩ := hfound.reached
    have hlt : found.specificity < pattern.specificity :=
      hs ▸ (hbelow path' pattern' heff').specificity_lt
    exact Specificity.not_lt_of_le (Specificity.le_trans (hfound'.greatest path pattern heff)
      (specificity_le_of_bySpecificity hle)) hlt

/-- The subtopic wins over its topic, although it has fewer files and the greater label. -/
theorem longestPrefix_winner_nested :
    let changes := ChangeSet.ofList
      ["Mathlib/Analysis/Complex/Basic.lean", "Mathlib/Analysis/Inner.lean",
        "Mathlib/Analysis/Normed.lean"]
    RuleTable.nestedTopics.settings.policy = .longestPrefix
      ∧ (changes.decision .nestedTopics).labels.head? = some "t-complex" := by
  intro changes
  refine ⟨rfl, ?_⟩
  obtain ⟨hempty, hwinner, _, horder⟩ := longestPrefix_winner .nestedTopics changes rfl
  let subtopic := PathPattern.literal "Mathlib/Analysis/Complex" ["Mathlib", "Analysis", "Complex"]
  have heff : EffectiveMatch .nestedTopics changes "Mathlib/Analysis/Complex/Basic.lean"
      ⟨"t-complex", [subtopic], []⟩ subtopic :=
    ⟨by decide +kernel, by decide +kernel, List.mem_cons_of_mem _ List.mem_cons_self,
      List.mem_cons_self, by decide +kernel, by decide +kernel⟩
  obtain ⟨rule, hrule, hhead⟩ := hwinner fun h => hempty.mp h _ _ _ heff
  obtain ⟨_, _, htop, _⟩ := hrule.top
  rw [hhead]
  rcases List.mem_cons.mp htop.rule_mem with rfl | hmem
  · obtain ⟨rest, hlabels⟩ := List.head?_eq_some_iff.mp hhead
    have hmem := horder _ _ _ _ heff htop.rule_mem (fun path' pattern' heff' => by
      rw [List.mem_singleton.mp heff'.pattern_mem]
      exact ⟨_, _, rfl, rfl, by decide, by decide⟩) [] rest hlabels
    cases hmem
  · rw [List.mem_singleton.mp hmem]

end PathLabels
