import PathLabels.Decision

/-!
# Ranking candidates

A policy ranks the labels that matched by sorting them. The comparisons are transitive and total, so
the ranked list has the same candidates and none of them stands before a better one. What a decision
takes of it is its beginning, and at least one label if there is any.
-/

namespace PathLabels

namespace Decision

variable {a b c : Candidate}

/-! ## The comparisons -/

theorem byFiles_iff : byFiles a b = true ↔
    b.2.files.length < a.2.files.length ∨ (a.2.files.length = b.2.files.length ∧ a.1 ≤ b.1) := by
  rw [byFiles, Bool.or_eq_true, Bool.and_eq_true, Bool.not_eq_true', decide_eq_true_eq,
    decide_eq_false_iff_not, String.not_lt, beq_iff_eq]

theorem byFiles_trans (h : byFiles a b = true) (h' : byFiles b c = true) :
    byFiles a c = true := by
  rw [byFiles_iff] at *
  rcases h with h | ⟨h, hle⟩
  · rcases h' with h' | ⟨h', _⟩ <;> exact Or.inl (by omega)
  · rcases h' with h' | ⟨h', hle'⟩
    · exact Or.inl (by omega)
    · exact Or.inr ⟨h.trans h', String.le_trans hle hle'⟩

theorem byFiles_total (a b : Candidate) : byFiles a b = true ∨ byFiles b a = true := by
  rw [byFiles_iff, byFiles_iff]
  rcases Nat.lt_trichotomy a.2.files.length b.2.files.length with h | h | h
  · exact Or.inr (Or.inl h)
  · rcases String.le_total a.1 b.1 with hle | hle
    · exact Or.inl (Or.inr ⟨h, hle⟩)
    · exact Or.inr (Or.inr ⟨h.symm, hle⟩)
  · exact Or.inl (Or.inl h)

theorem bySpecificity_iff : bySpecificity a b = true ↔
    b.2.specificity < a.2.specificity
      ∨ (a.2.specificity = b.2.specificity ∧ byFiles a b = true) := by
  rw [bySpecificity, Bool.or_eq_true, Bool.and_eq_true, decide_eq_true_eq, beq_iff_eq]

theorem bySpecificity_trans (h : bySpecificity a b = true) (h' : bySpecificity b c = true) :
    bySpecificity a c = true := by
  rw [bySpecificity_iff] at *
  rcases h with h | ⟨h, hfiles⟩
  · rcases h' with h' | ⟨h', _⟩
    · exact Or.inl (Specificity.lt_trans h' h)
    · exact Or.inl (h' ▸ h)
  · rcases h' with h' | ⟨h', hfiles'⟩
    · exact Or.inl (h ▸ h')
    · exact Or.inr ⟨h.trans h', byFiles_trans hfiles hfiles'⟩

theorem bySpecificity_total (a b : Candidate) :
    bySpecificity a b = true ∨ bySpecificity b a = true := by
  rw [bySpecificity_iff, bySpecificity_iff]
  rcases Specificity.lt_trichotomy a.2.specificity b.2.specificity with h | h | h
  · exact Or.inr (Or.inl h)
  · rcases byFiles_total a b with hfiles | hfiles
    · exact Or.inl (Or.inr ⟨h, hfiles⟩)
    · exact Or.inr (Or.inr ⟨h.symm, hfiles⟩)
  · exact Or.inl (Or.inl h)

/-! ## Ranked lists -/

/-- The items in the order of a comparison. -/
structure Arranges {α : Type} (le : α → α → Bool) (items ranked : List α) : Prop where
  perm : ranked.Perm items
  /-- No item stands before a better one. -/
  ordered : ranked.Pairwise fun a b => le a b = true

theorem arranges_mergeSort {α : Type} {le : α → α → Bool}
    (htrans : ∀ a b c, le a b = true → le b c = true → le a c = true)
    (htotal : ∀ a b, le a b = true ∨ le b a = true) (items : List α) :
    Arranges le items (items.mergeSort le) where
  perm := List.mergeSort_perm _ _
  ordered := List.pairwise_mergeSort htrans (fun a b => Bool.or_eq_true _ _ ▸ htotal a b) items

theorem arranges_rank (candidates : List Candidate) :
    Arranges bySpecificity candidates (rank .longestPrefix candidates) := by
  have htrans (a b c : Candidate) (h : bySpecificity a b = true)
      (h' : bySpecificity b c = true) : bySpecificity a c = true := bySpecificity_trans h h'
  exact arranges_mergeSort htrans bySpecificity_total candidates

/-- What does not stand before an item is no better than it. -/
theorem Arranges.mem_or_le {α : Type} {le : α → α → Bool} {items ranked pre post : List α} {a b : α}
    (h : Arranges le items ranked) (hsplit : ranked = pre ++ a :: post) (hself : le a a = true)
    (hb : b ∈ items) : b ∈ pre ∨ le a b = true := by
  have hordered := h.ordered
  have hmem := h.perm.mem_iff.mpr hb
  rw [hsplit] at hordered hmem
  have hafter := (List.pairwise_cons.mp (List.pairwise_append.mp hordered).2.1).1
  rcases List.mem_append.mp hmem with hpre | hpost
  · exact Or.inl hpre
  · rcases List.mem_cons.mp hpost with rfl | hpost
    · exact Or.inr hself
    · exact Or.inr (hafter b hpost)

/-! ## What a decision takes -/

theorem takeCap_isPrefix {α : Type} (cap : Option Nat) (items : List α) :
    takeCap cap items <+: items := by
  cases cap with
  | none => exact List.prefix_rfl
  | some n => exact List.take_prefix n items

/-- A cap from settings leaves something if there is something. -/
theorem takeCap_eq_nil_iff {α : Type} {settings : Settings} {items : List α} :
    takeCap settings.cap items = [] ↔ items = [] := by
  rw [Settings.cap]
  split
  · rename_i hpos
    rw [takeCap, List.take_eq_nil_iff]
    exact or_iff_right (Nat.ne_of_gt hpos)
  · exact Iff.rfl

end Decision

namespace MatchResult

variable {result : MatchResult} {settings : Settings}

theorem labels_decide (hpolicy : settings.policy = .longestPrefix) :
    (result.decide settings).labels
      = (Decision.takeCap settings.cap
          (Decision.rank .longestPrefix result.labels.entries)).map Prod.fst := by
  rw [decide, hpolicy]

theorem labels_decide_eq_nil_iff (hpolicy : settings.policy = .longestPrefix) :
    (result.decide settings).labels = [] ↔ result.labels.entries = [] := by
  rw [labels_decide hpolicy, List.map_eq_nil_iff, Decision.takeCap_eq_nil_iff]
  have hperm := (Decision.arranges_rank result.labels.entries).perm
  exact ⟨fun h => (h ▸ hperm).nil_eq.symm, fun h => (hperm.trans (.of_eq h)).eq_nil⟩

/-- **A label of a decision is at least as good as every label that does not stand before it.** -/
theorem exists_of_labels_decide (hpolicy : settings.policy = .longestPrefix) {l : String}
    {pre post : List String} (h : (result.decide settings).labels = pre ++ l :: post) :
    ∃ found, (l, found) ∈ result.labels.entries
      ∧ ∀ c ∈ result.labels.entries, c.1 ∈ pre ∨ Decision.bySpecificity (l, found) c = true := by
  have harranges := Decision.arranges_rank result.labels.entries
  obtain ⟨rest, hrest⟩ := Decision.takeCap_isPrefix settings.cap
    (Decision.rank .longestPrefix result.labels.entries)
  rw [labels_decide hpolicy] at h
  obtain ⟨before, others, htaken, rfl, hothers⟩ := List.map_eq_append_iff.mp h
  obtain ⟨⟨label, found⟩, after, rfl, rfl, _⟩ := List.map_eq_cons_iff.mp hothers
  -- the decision is a beginning of the ranked list, so the same labels stand before this one there
  rw [htaken, List.append_assoc, List.cons_append] at hrest
  refine ⟨found, harranges.perm.mem_iff.mp ?_, fun c hc => ?_⟩
  · rw [← hrest]
    exact List.mem_append_right _ List.mem_cons_self
  · have hself := (Decision.bySpecificity_total (label, found) (label, found)).elim id id
    rcases harranges.mem_or_le hrest.symm hself hc with hbefore | hle
    · exact Or.inl (List.mem_map.mpr ⟨c, hbefore, rfl⟩)
    · exact Or.inr hle

end MatchResult

end PathLabels
