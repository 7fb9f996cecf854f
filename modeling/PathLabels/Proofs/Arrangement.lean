import Mathlib.Data.List.Nodup
import PathLabels.Proofs.ByteOrder
import PathLabels.Proofs.Ranking

/-!
# The ranking that a decision begins

The order in which a policy ranks labels is said here a second time, strictly and by the bytes of
the labels. No two candidates have the same label, so of two different ones always one ranks before
the other, and there is one arrangement of them in this order. A decision is a beginning of it, as
long as the cap allows: what is left out ranks after all that is taken, and a greater cap only adds
to the end.
-/

namespace PathLabels

namespace Decision

variable {policy : Policy} {a b : Candidate}

/-! ## The order -/

/-- More files, or as many of them and the bytewise smaller label. -/
def MoreFiles (a b : Candidate) : Prop :=
  b.2.files.length < a.2.files.length
    ∨ (a.2.files.length = b.2.files.length ∧ Text.bytes a.1 < Text.bytes b.1)

/-- The order in which a policy ranks; `unique` ranks nothing. -/
def RanksBefore : Policy → Candidate → Candidate → Prop
  | .all, a, b => MoreFiles a b
  | .longestPrefix, a, b =>
    b.2.specificity < a.2.specificity ∨ (a.2.specificity = b.2.specificity ∧ MoreFiles a b)
  | .unique, _, _ => False

instance (a b : Candidate) : Decidable (MoreFiles a b) := inferInstanceAs (Decidable (_ ∨ _))

instance (policy : Policy) (a b : Candidate) : Decidable (RanksBefore policy a b) :=
  match policy with
  | .all => inferInstanceAs (Decidable (MoreFiles a b))
  | .longestPrefix => inferInstanceAs (Decidable (_ ∨ _))
  | .unique => inferInstanceAs (Decidable False)

theorem MoreFiles.asymm (h : MoreFiles a b) : ¬MoreFiles b a := by
  rintro (h' | ⟨h', hlt'⟩)
  · rcases h with h | ⟨h, _⟩ <;> omega
  · rcases h with h | ⟨_, hlt⟩
    · omega
    · exact List.lt_asymm hlt hlt'

theorem RanksBefore.asymm (h : RanksBefore policy a b) : ¬RanksBefore policy b a := by
  cases policy with
  | all => exact MoreFiles.asymm h
  | longestPrefix =>
    rintro (h' | ⟨h', hfiles'⟩)
    · rcases h with h | ⟨h, _⟩
      · exact Specificity.not_lt_of_le (Specificity.le_of_lt h) h'
      · exact Specificity.not_lt_of_le (h ▸ Specificity.le_refl _) h'
    · rcases h with h | ⟨_, hfiles⟩
      · exact Specificity.not_lt_of_le (h' ▸ Specificity.le_refl _) h
      · exact hfiles.asymm hfiles'
  | unique => cases h

/-- What the sorting takes for better is better, unless it is the same label. -/
theorem moreFiles_of_byFiles (h : byFiles a b = true) (hne : a.1 ≠ b.1) : MoreFiles a b := by
  rcases byFiles_iff.mp h with h | ⟨h, hle⟩
  · exact Or.inl h
  · refine Or.inr ⟨h, Text.bytes_lt_bytes_iff.mpr ?_⟩
    by_cases hlt : a.1 < b.1
    · exact hlt
    · exact absurd (String.le_antisymm hle hlt) hne

theorem ranksBefore_of_bySpecificity (h : bySpecificity a b = true) (hne : a.1 ≠ b.1) :
    RanksBefore .longestPrefix a b := by
  rcases bySpecificity_iff.mp h with h | ⟨h, hfiles⟩
  · exact Or.inl h
  · exact Or.inr ⟨h, moreFiles_of_byFiles hfiles hne⟩

/-! ## The arrangement -/

/-- The labels that matched, each once, in the order of a policy. -/
structure IsRanking (policy : Policy) (result : MatchResult) (ranking : List Candidate) : Prop where
  perm : ranking.Perm result.labels.entries
  strict : ranking.Pairwise (RanksBefore policy)

variable {result : MatchResult} {ranking other : List Candidate} {settings settings' : Settings}

theorem nodup_labels (result : MatchResult) : (result.labels.entries.map Prod.fst).Nodup := by
  refine List.Pairwise.imp (fun {l l'} hlt heq => ?_) result.labels.ascends
  rw [heq] at hlt
  exact String.lt_irrefl l' hlt

theorem nodup_of_perm (h : ranking.Perm result.labels.entries) : (ranking.map Prod.fst).Nodup :=
  (h.map Prod.fst).nodup_iff.mpr (nodup_labels result)

theorem IsRanking.unique (h : IsRanking policy result ranking)
    (h' : IsRanking policy result other) : other = ranking :=
  (h'.perm.trans h.perm.symm).eq_of_pairwise
    (fun _ _ _ _ hab hba => absurd hba hab.asymm) h'.strict h.strict

/-- Items in an order are in it strictly if no two of them have the same label. -/
theorem Arranges.isRanking {le : Candidate → Candidate → Bool}
    (h : Arranges le result.labels.entries ranking)
    (hle : ∀ a b : Candidate, le a b = true → a.1 ≠ b.1 → RanksBefore policy a b) :
    IsRanking policy result ranking where
  perm := h.perm
  strict := by
    have hlabels : ranking.Pairwise fun a b => a.1 ≠ b.1 :=
      List.pairwise_map.mp (nodup_of_perm h.perm)
    exact (h.ordered.and hlabels).imp fun hab => hle _ _ hab.1 hab.2

/-- **A policy that ranks has a ranking**, and sorting finds it. -/
theorem isRanking_rank (result : MatchResult) (hpolicy : policy ≠ .unique) :
    IsRanking policy result (rank policy result.labels.entries) := by
  cases policy with
  | all =>
    refine Arranges.isRanking (arranges_mergeSort ?_ byFiles_total _) ?_
    · exact fun _ _ _ h h' => byFiles_trans h h'
    · exact fun _ _ => moreFiles_of_byFiles
  | longestPrefix =>
    exact Arranges.isRanking (arranges_rank _) fun _ _ => ranksBefore_of_bySpecificity
  | unique => exact absurd rfl hpolicy

/-! ## The beginning that is taken -/

/-- How many of `n` labels a decision takes. -/
def taken (settings : Settings) (n : Nat) : Nat :=
  if settings.maxLabels = 0 then n else min settings.maxLabels n

/-- The cap of one of two settings is not above that of the other; zero is above all. -/
def CapLe (settings settings' : Settings) : Prop :=
  settings'.maxLabels = 0 ∨ (0 < settings.maxLabels ∧ settings.maxLabels ≤ settings'.maxLabels)

theorem takeCap_eq_take {α : Type} (settings : Settings) (items : List α) :
    takeCap settings.cap items = items.take (taken settings items.length) := by
  unfold Settings.cap taken
  by_cases h : settings.maxLabels = 0
  · rw [h, if_neg (Nat.lt_irrefl 0), if_pos rfl, List.take_length]
    rfl
  · rw [if_pos (Nat.pos_of_ne_zero h), if_neg h]
    exact List.take_eq_take_min

theorem taken_le_taken (h : CapLe settings settings') (n : Nat) :
    taken settings n ≤ taken settings' n := by
  unfold taken
  rcases h with h | ⟨hpos, hle⟩
  · rw [if_pos h]
    split <;> omega
  · rw [if_neg (by omega), if_neg (by omega)]
    omega

end Decision

namespace MatchResult

open Decision

variable {result : MatchResult} {settings settings' : Settings} {ranking : List Candidate}

/-- The labels of a decision are the first ones of the ranked candidates. -/
theorem labels_decide_eq_take (result : MatchResult) (settings : Settings) :
    let ranked := rank settings.policy result.labels.entries
    (result.decide settings).labels
      = (ranked.map Prod.fst).take (taken settings ranked.length) := by
  rw [decide, takeCap_eq_take, List.map_take]

/-- A greater cap adds to the end of a decision. -/
theorem labels_decide_isPrefix (hpolicy : settings'.policy = settings.policy)
    (hcap : CapLe settings settings') :
    (result.decide settings).labels <+: (result.decide settings').labels := by
  rw [labels_decide_eq_take, labels_decide_eq_take, hpolicy]
  exact List.take_prefix_take_left (taken_le_taken hcap _)

/-- What is taken ranks before what is left out. -/
theorem ranksBefore_of_taken {policy : Policy} {n : Nat} {a b : Candidate}
    (h : IsRanking policy result ranking) (ha : a ∈ ranking) (hb : b ∈ ranking)
    (hin : a.1 ∈ (ranking.map Prod.fst).take n) (hout : b.1 ∉ (ranking.map Prod.fst).take n) :
    RanksBefore policy a b := by
  rw [← List.map_take] at hin hout
  have hsplit := List.take_append_drop n ranking
  -- a label belongs to one candidate, so this one is the one that is taken
  have htaken : a ∈ ranking.take n := by
    obtain ⟨a', ha', heq⟩ := List.mem_map.mp hin
    have hsame : a' = a := List.inj_on_of_nodup_map (nodup_of_perm h.perm)
      (List.mem_of_mem_take ha') ha heq
    exact hsame ▸ ha'
  have hleft : b ∈ ranking.drop n := by
    rw [← hsplit] at hb
    refine (List.mem_append.mp hb).resolve_left fun hmem => hout ?_
    exact List.mem_map.mpr ⟨b, hmem, rfl⟩
  have hstrict := h.strict
  rw [← hsplit] at hstrict
  exact (List.pairwise_append.mp hstrict).2.2 a htaken b hleft

theorem labels_decide_unique (hpolicy : settings.policy = .unique) :
    (∀ c, result.labels.entries = [c] → (result.decide settings).labels = [c.1])
      ∧ (result.labels.size ≠ 1 → (result.decide settings).labels = []) := by
  rw [labels_decide_eq_take, hpolicy]
  constructor
  · intro c hc
    have hranked : rank .unique result.labels.entries = [c] := by rw [hc]; rfl
    rw [hranked]
    unfold taken
    -- any cap leaves room for one
    split
    · rfl
    · refine List.take_of_length_le ?_
      rw [List.length_map, List.length_singleton]
      omega
  · intro hsize
    have hranked : rank .unique result.labels.entries = [] := if_neg hsize
    rw [hranked]
    exact List.take_nil

/-- The ranked labels have matched, and no two of them are the same. -/
theorem ranked_labels (policy : Policy) (result : MatchResult) :
    let ranked := (rank policy result.labels.entries).map Prod.fst
    ranked.Nodup ∧ ∀ l ∈ ranked, l ∈ result.labels.keys := by
  by_cases hpolicy : policy = .unique
  · subst hpolicy
    unfold rank
    dsimp only
    split
    · exact ⟨nodup_labels result, fun _ hl => hl⟩
    · exact ⟨List.nodup_nil, fun _ hl => absurd hl List.not_mem_nil⟩
  · have hperm := (isRanking_rank result hpolicy).perm
    exact ⟨nodup_of_perm hperm, fun _ hl => (hperm.map Prod.fst).mem_iff.mp hl⟩

/--
**A decision is the beginning of a ranking.**

Under a policy that ranks there is exactly one arrangement of the matched labels in its order, and
the decision is its first labels: as many as the cap allows, and all if there is no cap. So every
label that is taken ranks before every label that is left out. Under `unique` the decision is the
only label that matched, or else nothing, whatever the cap.

Under every policy the labels of a decision have matched and are different, and with a greater cap
it begins with the same labels.
-/
theorem decide_begins_ranking (result : MatchResult) (settings : Settings) :
    let labels := (result.decide settings).labels
    (settings.policy ≠ .unique →
        ∃ ranking, IsRanking settings.policy result ranking
          ∧ (∀ other, IsRanking settings.policy result other → other = ranking)
          ∧ labels = (ranking.map Prod.fst).take (taken settings result.labels.size)
          ∧ ∀ a ∈ result.labels.entries, ∀ b ∈ result.labels.entries,
              a.1 ∈ labels → b.1 ∉ labels → RanksBefore settings.policy a b)
      ∧ (settings.policy = .unique →
          (∀ c, result.labels.entries = [c] → labels = [c.1])
            ∧ (result.labels.size ≠ 1 → labels = []))
      ∧ labels.Nodup
      ∧ (∀ l ∈ labels, l ∈ result.labels.keys)
      ∧ ∀ settings' : Settings, settings'.policy = settings.policy → CapLe settings settings' →
          labels <+: (result.decide settings').labels := by
  intro labels
  have hlabels : labels = _ := labels_decide_eq_take result settings
  obtain ⟨hnodup, hmatched⟩ := ranked_labels settings.policy result
  have htaken : labels.Sublist ((rank settings.policy result.labels.entries).map Prod.fst) := by
    rw [hlabels]
    exact List.take_sublist _ _
  refine ⟨fun hpolicy => ?_, labels_decide_unique, htaken.nodup hnodup,
    fun l hl => hmatched l (htaken.subset hl), fun _ => labels_decide_isPrefix⟩
  have hranking := isRanking_rank result hpolicy
  rw [hranking.perm.length_eq] at hlabels
  refine ⟨_, hranking, fun _ => hranking.unique, hlabels, fun a ha b hb hin hout => ?_⟩
  rw [hlabels] at hin hout
  exact ranksBefore_of_taken hranking (hranking.perm.mem_iff.mpr ha)
    (hranking.perm.mem_iff.mpr hb) hin hout

/-- Three labels of one specificity, two of them with one file each, and a label with more files
that is less specific. -/
def tied : MatchResult where
  labels := .ofList [("t-wide", ⟨["a/b", "a/c", "x"], ⟨1, 40⟩⟩), ("t-b", ⟨["a/c"], ⟨2, 9⟩⟩),
    ("t-a", ⟨["a/b"], ⟨2, 9⟩⟩), ("t-ab", ⟨["a/b", "a/c"], ⟨2, 9⟩⟩)]

/-- The ties are resolved by the files and then by the label, and the cap leaves the fourth label
out, which would be the first one under `all`. -/
theorem decide_begins_ranking_tied :
    let settings : Settings := { policy := .longestPrefix, maxLabels := 3 }
    let unbounded : Settings := { policy := .all, maxLabels := 0 }
    settings.policy ≠ .unique ∧ (tied.decide settings).labels = ["t-ab", "t-a", "t-b"]
      ∧ unbounded.policy ≠ .unique
      ∧ (tied.decide unbounded).labels = ["t-wide", "t-ab", "t-a", "t-b"] := by
  intro settings unbounded
  have hsettings : settings.policy ≠ .unique := by decide
  have hunbounded : unbounded.policy ≠ .unique := by decide
  obtain ⟨_, _, honly, hlabels, _⟩ := (decide_begins_ranking tied settings).1 hsettings
  obtain ⟨_, _, honly', hlabels', _⟩ := (decide_begins_ranking tied unbounded).1 hunbounded
  -- there is one ranking, so it is enough to give one
  have hranking : IsRanking .longestPrefix tied [("t-ab", ⟨["a/b", "a/c"], ⟨2, 9⟩⟩),
      ("t-a", ⟨["a/b"], ⟨2, 9⟩⟩), ("t-b", ⟨["a/c"], ⟨2, 9⟩⟩),
      ("t-wide", ⟨["a/b", "a/c", "x"], ⟨1, 40⟩⟩)] :=
    ⟨by decide +kernel, by decide +kernel⟩
  have hranking' : IsRanking .all tied [("t-wide", ⟨["a/b", "a/c", "x"], ⟨1, 40⟩⟩),
      ("t-ab", ⟨["a/b", "a/c"], ⟨2, 9⟩⟩), ("t-a", ⟨["a/b"], ⟨2, 9⟩⟩),
      ("t-b", ⟨["a/c"], ⟨2, 9⟩⟩)] :=
    ⟨by decide +kernel, by decide +kernel⟩
  rw [hlabels, hlabels', ← honly _ hranking, ← honly' _ hranking']
  exact ⟨hsettings, rfl, hunbounded, rfl⟩

end MatchResult

end PathLabels
