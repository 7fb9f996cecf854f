import PathLabels.Proofs.Protocol
import PathLabels.Tracker.Memory

/-!
# Applying a decision to labels in memory

A tracker in memory answers a listing with its labels or not at all, and adding a label either
fails without a trace or puts the label behind the others. So the labels after a run are those before
it and then, each once, those that the report calls applied: what is reported is what happened.
-/

namespace PathLabels

/-- The label that an exchange puts on the pull request, if it does. -/
def Exchange.added? : Exchange → Option String
  | .add _ label (.ok ()) => some label
  | _ => none

namespace MemoryTracker

/-! ## Adding labels -/

/-- The labels after further ones have been added, one after the other. -/
def addLabels (labels more : List String) : List String := more.foldl addLabel labels

@[simp] theorem mem_addLabel {labels : List String} {label l : String} :
    l ∈ addLabel labels label ↔ l ∈ labels ∨ l = label := by
  rw [addLabel]
  split
  · rename_i h
    exact ⟨Or.inl, fun hl => hl.elim id fun he => he ▸ h⟩
  · rw [List.mem_append, List.mem_singleton]

@[simp] theorem mem_addLabels {labels more : List String} {l : String} :
    l ∈ addLabels labels more ↔ l ∈ labels ∨ l ∈ more := by
  induction more generalizing labels with
  | nil => simp [addLabels]
  | cons label more ih =>
    show l ∈ addLabels (addLabel labels label) more ↔ _
    rw [ih, mem_addLabel, List.mem_cons, or_assoc]

/-- `labels` has become `labels'` by additions of labels out of `source`, each once. -/
def Extends (source labels labels' : List String) : Prop :=
  ∃ new, labels' = labels ++ new ∧ new.Nodup ∧ ∀ l ∈ new, l ∈ source ∧ l ∉ labels

theorem extends_refl (source labels : List String) : Extends source labels labels :=
  ⟨[], (List.append_nil labels).symm, List.nodup_nil, by simp⟩

theorem extends_addLabel {source labels labels' : List String} {label : String}
    (h : Extends source labels labels') (hmem : label ∈ source) :
    Extends source labels (addLabel labels' label) := by
  obtain ⟨new, rfl, hnodup, hnew⟩ := h
  rw [addLabel]
  split
  · exact ⟨new, rfl, hnodup, hnew⟩
  · rename_i hfresh
    rw [List.mem_append, not_or] at hfresh
    refine ⟨new ++ [label], List.append_assoc _ _ _, ?_, ?_⟩
    · refine List.nodup_append.mpr ⟨hnodup, by simp, ?_⟩
      intro l hl l' hl' he
      rw [List.mem_singleton.mp hl'] at he
      exact hfresh.2 (he ▸ hl)
    · intro l hl
      rcases List.mem_append.mp hl with h | h
      · exact hnew l h
      · rw [List.mem_singleton.mp h]
        exact ⟨hmem, hfresh.1⟩

theorem extends_addLabels {source labels labels' more : List String}
    (h : Extends source labels labels') (hmore : ∀ l ∈ more, l ∈ source) :
    Extends source labels (addLabels labels' more) := by
  induction more generalizing labels' with
  | nil => exact h
  | cons label more ih =>
    exact ih (extends_addLabel h (hmore label List.mem_cons_self))
      fun l hl => hmore l (List.mem_cons_of_mem _ hl)

/-- The faults that coming calls end in. -/
structure Faults where
  list : List (Option TrackerError) := []
  add : List (Option TrackerError) := []
  rejected : List (String × TrackerError) := []

/-- The same labels, with other faults laid down. -/
def withFaults (s : MemoryTracker) (faults : Faults) : MemoryTracker :=
  { labels := s.labels, listFaults := faults.list, addFaults := faults.add,
    rejected := faults.rejected }

/-! ## What the answers say about the labels -/

theorem labels_list (s : MemoryTracker) : s.list.2.labels = s.labels := by
  rw [list]
  cases s.listFaults.head?.join <;> rfl

theorem eq_labels_of_list {s : MemoryTracker} {labels : List String}
    (h : s.list.1 = .ok labels) : labels = s.labels := by
  rw [list] at h
  cases hf : s.listFaults.head?.join with
  | none => rw [hf] at h; exact (Except.ok.inj h).symm
  | some e => rw [hf] at h; cases h

theorem labels_add (s : MemoryTracker) (pr : Nat) (label : String) :
    (s.add label).2.labels
      = addLabels s.labels (Exchange.added? (.add pr label (s.add label).1)).toList := by
  rw [add]
  cases s.addFault? label <;> rfl

/-- The labels after a transcript are those before it and those it added. -/
theorem labels_of_goes {s s' : MemoryTracker} {t : Transcript} (h : tracker.Goes s t s') :
    s'.labels = addLabels s.labels (t.filterMap Exchange.added?) := by
  induction h with
  | nil => rfl
  | @list s s₁ s' t pr answer hs _ ih =>
    have h₁ : s₁ = s.list.2 := (congrArg Prod.snd hs).symm
    rw [ih, h₁, labels_list]
    rfl
  | @add s s₁ s' t pr label answer hs _ ih =>
    have ha : answer = (s.add label).1 := (congrArg Prod.fst hs).symm
    have h₁ : s₁ = (s.add label).2 := (congrArg Prod.snd hs).symm
    rw [ih, h₁, labels_add s pr, ← ha, List.filterMap_cons]
    cases Exchange.added? (.add pr label answer) <;> rfl
  | @pause s s₁ s' t d hs _ ih =>
    have h₁ : s₁ = s := (congrArg Prod.snd hs).symm
    rw [ih, h₁]
    rfl

/-- Whether the first listing in this state is answered, or a second after a transient fault. -/
def isAnswered (s : MemoryTracker) : Bool :=
  match s.list.1 with
  | .ok _ => true
  | .error e => e.isTransient && s.list.2.list.1.isOk

/-- The labels that an application reads in this state. -/
def view (s : MemoryTracker) : List String := if s.isAnswered then s.labels else []

theorem mem_labels_of_mem_view {s : MemoryTracker} {l : String} (h : l ∈ s.view) :
    l ∈ s.labels := by
  rw [view] at h
  split at h
  · exact h
  · cases h

theorem view_of_ok {s : MemoryTracker} {labels : List String} (h : s.list.1 = .ok labels) :
    s.view = labels := by
  rw [view, isAnswered, h, eq_labels_of_list h]
  rfl

theorem view_of_settled {s : MemoryTracker} {e : TrackerError} (h : s.list.1 = .error e)
    (he : e.isTransient = false) : s.view = [] := by
  rw [view, isAnswered, h]
  simp [he]

theorem view_of_transient {s : MemoryTracker} {e : TrackerError} (h : s.list.1 = .error e)
    (he : e.isTransient = true) : s.view = if s.list.2.list.1.isOk then s.labels else [] := by
  rw [view, isAnswered, h]
  simp [he]

/-- An application reads the labels that are there, or none if the listing fails in the end. -/
theorem view_of_goes {s s' : MemoryTracker} {listing : Answers (List String)} {pr : Nat}
    {delay : Duration} (h : tracker.Goes s (listing.transcript (.list pr) delay) s') :
    listing.view = s.view := by
  cases listing with
  | once answer settled =>
    cases h with
    | list hs _ =>
      have ha : s.list.1 = answer := congrArg Prod.fst hs
      cases answer with
      | ok labels => rw [view_of_ok ha]; rfl
      | error e => rw [view_of_settled ha (settled e rfl)]; rfl
  | twice fault transient answer =>
    cases h with
    | @list _ s₁ _ _ _ _ hs hrest =>
      have ha : s.list.1 = .error fault := congrArg Prod.fst hs
      have h₁ : s.list.2 = s₁ := congrArg Prod.snd hs
      cases hrest with
      | @pause _ s₂ _ _ _ hp hrest =>
        -- the pause leaves the labels and the coming faults as they are
        have h₂ : s₁ = s₂ := congrArg Prod.snd hp
        cases hrest with
        | list hs' _ =>
          have ha' : s.list.2.list.1 = answer := by rw [h₁, h₂]; exact congrArg Prod.fst hs'
          rw [view_of_transient ha transient, ha']
          cases answer with
          | ok labels =>
            exact (eq_labels_of_list ha').trans s.labels_list
          | error e => rfl

end MemoryTracker

/-! ## What a shape says about the labels -/

namespace Turn

theorem added_transcript (turn : Turn) (pr : Nat) (delay : Duration) :
    (turn.transcript pr delay).filterMap Exchange.added? = turn.applied?.toList := by
  cases turn with
  | present label => rfl
  | asked label answers =>
    cases answers with
    | once answer settled => cases answer <;> rfl
    | twice fault transient answer => cases answer <;> rfl

theorem added_transcripts (turns : List Turn) (pr : Nat) (delay : Duration) :
    (turns.flatMap (transcript pr delay)).filterMap Exchange.added?
      = turns.filterMap applied? := by
  induction turns with
  | nil => rfl
  | cons turn turns ih =>
    rw [List.flatMap_cons, List.filterMap_append, ih, added_transcript, List.filterMap_cons]
    cases turn.applied? <;> rfl

end Turn

theorem Answers.added_transcript (listing : Answers (List String)) (pr : Nat) (delay : Duration) :
    (listing.transcript (.list pr) delay).filterMap Exchange.added? = [] := by
  cases listing <;> rfl

namespace Application

/-- The transcript adds exactly the labels that the report calls applied. -/
theorem added_transcript (course : Application) (pr : Nat) (delay : Duration) :
    (course.transcript pr delay).filterMap Exchange.added? = course.report.applied := by
  cases course with
  | idle => rfl
  | skipped listing label => exact listing.added_transcript pr delay
  | carried listing turns =>
    rw [transcript, List.filterMap_append, listing.added_transcript, Turn.added_transcripts]
    rfl

/-- Whether an application read the labels `view`, if it read any. -/
def Reads (view : List String) : Application → Prop
  | idle => True
  | skipped listing _ => listing.view = view
  | carried listing _ => listing.view = view

theorem reads_of_goes {s s' : MemoryTracker} {course : Application} {pr : Nat} {delay : Duration}
    (h : MemoryTracker.tracker.Goes s (course.transcript pr delay) s') :
    course.Reads s.view := by
  cases course with
  | idle => trivial
  | skipped listing label => exact MemoryTracker.view_of_goes h
  | carried listing turns =>
    obtain ⟨s₁, h₁, _⟩ := h.split
    exact MemoryTracker.view_of_goes h₁

end Application

/-- **A run over labels in memory.** Its shape fits the decision and reads the labels that are
there, and the labels after it are those before it and those it reports as applied. -/
theorem Applier.recordedRun_memory (a : Applier) (pr : Nat) (decision : Decision)
    (table : RuleTable) (s : MemoryTracker) :
    ∃ course : Application, course.Fits a table decision ∧ course.Reads s.view
      ∧ (a.recordedRun MemoryTracker.tracker pr decision table s).1
          = (course.report, Journal.add {} (course.calls pr) course.secondCalls a.retryDelay)
      ∧ (a.recordedRun MemoryTracker.tracker pr decision table s).2.labels
          = MemoryTracker.addLabels s.labels course.report.applied := by
  obtain ⟨course, hfits, hgoes, hrun⟩ :=
    a.recordedRun_shape MemoryTracker.tracker pr decision table s
  refine ⟨course, hfits, Application.reads_of_goes hgoes, hrun, ?_⟩
  rw [MemoryTracker.labels_of_goes hgoes, course.added_transcript]

end PathLabels
