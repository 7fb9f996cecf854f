import PathLabels.Proofs.Additive
import PathLabels.Proofs.ByteOrder
import PathLabels.Proofs.Skip
import PathLabels.Proofs.Turns

/-!
# For which label a pull request is left alone

After the listing a run does one of two things: it stops for a label that it has read, or it gives
each label of its decision its turn. Which of the two it is, for which label, and what is then asked
of the tracker depends on which labels have been read, not on where and how often they were listed.

The second part of that is about two runs. They may be of two trackers, with states of their own, as
long as these answer alike when they are asked to add labels.
-/

namespace PathLabels

/-! ## Trackers that answer alike -/

/-- From related states two trackers answer alike to whatever comes after a listing: adding a label
gets the same answer, and it leads to related states, as a pause does. -/
structure Tracker.AddsAlike {σ σ' : Type} (tracker : Tracker (StateM σ))
    (tracker' : Tracker (StateM σ')) (R : σ → σ' → Prop) : Prop where
  add : ∀ {s s'}, R s s' → ∀ pr label,
    ((tracker.add pr label).run s).1 = ((tracker'.add pr label).run s').1
      ∧ R ((tracker.add pr label).run s).2 ((tracker'.add pr label).run s').2
  pause : ∀ {s s'}, R s s' → ∀ d, R ((tracker.pause d).run s).2 ((tracker'.pause d).run s').2

namespace Tracker

variable {σ σ' : Type} {tracker : Tracker (StateM σ)} {tracker' : Tracker (StateM σ')}
  {R : σ → σ' → Prop}

/-- What one tracker answers the other one answers too, if no labels are listed. -/
theorem AddsAlike.goes (h : tracker.AddsAlike tracker' R) {s s₁ : σ} {s' : σ'} {t : Transcript}
    (hgoes : tracker.Goes s t s₁) (hlist : ∀ pr answer, Exchange.list pr answer ∉ t)
    (hR : R s s') : ∃ s₁', tracker'.Goes s' t s₁' := by
  induction hgoes generalizing s' with
  | nil => exact ⟨s', .nil⟩
  | @list _ _ _ _ pr answer => exact absurd List.mem_cons_self (hlist pr answer)
  | @add s s₁ _ _ pr label answer hs _ ih =>
    obtain ⟨hanswer, hR'⟩ := h.add hR pr label
    rw [hs] at hanswer hR'
    obtain ⟨s₁', hgoes⟩ := ih (fun pr answer hmem => hlist pr answer (.tail _ hmem)) hR'
    exact ⟨s₁', .add (Prod.ext hanswer.symm rfl) hgoes⟩
  | @pause s s₁ _ _ d hs _ ih =>
    have hR' := h.pause hR d
    rw [hs] at hR'
    obtain ⟨s₁', hgoes⟩ := ih (fun pr answer hmem => hlist pr answer (.tail _ hmem)) hR'
    exact ⟨s₁', .pause rfl hgoes⟩

end Tracker

/-- In the turn of a label nothing is listed. -/
theorem Turn.list_not_mem_transcript (turn : Turn) (pr : Nat) (delay : Duration) (pr' : Nat)
    (answer : Except TrackerError (List String)) :
    Exchange.list pr' answer ∉ turn.transcript pr delay := by
  cases turn with
  | present label => exact List.not_mem_nil
  | asked label answers =>
    cases answers with
    | once x settled => simp [transcript, Answers.transcript, Answers.all]
    | twice fault transient x => simp [transcript, Answers.transcript, Answers.all]

theorem Turn.fits_congr {view view' : List String} (h : ∀ l, l ∈ view ↔ l ∈ view') (turn : Turn) :
    turn.Fits view ↔ turn.Fits view' := by
  cases turn with
  | present label => exact h label
  | asked label answers => exact not_congr (h label)

/-! ## Going on after the listing -/

/-- Whether a call is to add a label. -/
def TrackerCall.isAdd : TrackerCall → Bool
  | list _ => false
  | add _ _ => true

/-- The calls to add a label, in order. -/
def Journal.adds (journal : Journal) : List TrackerCall := journal.calls.filter TrackerCall.isAdd

theorem Answers.filter_isAdd_calls_list {α : Type} (answers : Answers α) (pr : Nat) :
    (answers.calls (.list pr)).filter TrackerCall.isAdd = [] := by
  refine List.filter_eq_nil_iff.mpr fun call hcall => ?_
  obtain ⟨_, _, rfl⟩ := List.mem_map.mp hcall
  exact Bool.false_ne_true

theorem Turn.filter_isAdd_calls (turns : List Turn) (pr : Nat) :
    (turns.flatMap (calls pr)).filter TrackerCall.isAdd = turns.flatMap (calls pr) := by
  refine List.filter_eq_self.mpr fun call hcall => ?_
  obtain ⟨turn, _, hturn⟩ := List.mem_flatMap.mp hcall
  cases turn with
  | present label => cases hturn
  | asked label answers =>
    obtain ⟨_, _, rfl⟩ := List.mem_map.mp hturn
    rfl

namespace Applier

variable {σ σ' : Type}

/-- What the labels of a pull request are read as, at the second attempt if the first met a
transient fault, and the state after that. -/
def reading (a : Applier) (tracker : Tracker (StateM σ)) (pr : Nat) (s : σ) :
    Except TrackerError (List String) × σ :=
  let (tried, s₁) := (a.withRetry tracker (tracker.list pr)).run s
  (tried.result, s₁)

theorem exists_answers_reading (a : Applier) (tracker : Tracker (StateM σ)) (pr : Nat) (s : σ) :
    ∃ listing : Answers (List String), listing.last = (a.reading tracker pr s).1
      ∧ tracker.Goes s (listing.transcript (.list pr) a.retryDelay) (a.reading tracker pr s).2 := by
  obtain ⟨t, hgoes, -, listing, htried, rfl⟩ :=
    tracker.recordedConversation.ensures_withRetry a (tracker.recordedConversation.list pr) {} s
  have hrun := tracker.recordedSimulation.relates_withRetry a
    (tracker.recordedSimulation.list pr) {} s
  refine ⟨listing, ?_, ?_⟩
  · rw [reading, ← hrun]
    exact (congrArg Tried.result htried).symm
  · rw [reading, ← hrun]
    exact hgoes

/-- How a run goes on from a view and a state: what it reports, and the calls to add labels. -/
inductive GoesOn (a : Applier) (tracker : Tracker (StateM σ)) (pr : Nat) (decision : Decision)
    (table : RuleTable) (view : List String) (s : σ) : Report → List TrackerCall → Prop where
  /-- The pull request is left alone for a label. -/
  | leftAlone {label : String} : a.skipLabel? table decision view = some label →
      GoesOn a tracker pr decision table view s { skippedFor := some label } []
  /-- Each label has its turn. -/
  | carried {turns : List Turn} {s' : σ} : a.skipLabel? table decision view = none →
      turns.map Turn.label = decision.labels → (∀ turn ∈ turns, turn.Fits view) →
      tracker.Goes s (turns.flatMap (Turn.transcript pr a.retryDelay)) s' →
      GoesOn a tracker pr decision table view s (Turn.report turns) (turns.flatMap (Turn.calls pr))

variable {a : Applier} {tracker : Tracker (StateM σ)} {tracker' : Tracker (StateM σ')} {pr : Nat}
  {decision : Decision} {table : RuleTable}

/-- The labels that have been read; none if they could not be. -/
def labelsRead (read : Except TrackerError (List String)) : List String := read.toOption.getD []

theorem view_eq_labelsRead {read : Except TrackerError (List String)}
    {listing : Answers (List String)} (h : listing.last = read) :
    listing.view = labelsRead read := by
  rw [Answers.view, h]
  cases read with
  | ok labels => rfl
  | error e => rfl

/-- **After the listing a run goes on from what has been read.** -/
theorem goesOn (a : Applier) (tracker : Tracker (StateM σ)) (pr : Nat) (table : RuleTable)
    (hne : decision.labels ≠ []) (s : σ) :
    a.GoesOn tracker pr decision table (labelsRead (a.reading tracker pr s).1)
      (a.reading tracker pr s).2 ((a.apply tracker pr decision table).run s).1
      (a.recordedRun tracker pr decision table s).1.2.adds := by
  obtain ⟨course, hfits, hgoes, hcalls, -, -, hrun⟩ :=
    a.apply_follows_protocol tracker pr decision table s
  obtain ⟨answers, hlast, hreading⟩ := a.exists_answers_reading tracker pr s
  rw [hrun, Journal.adds, hcalls]
  -- the listing of the run is the one that has been read
  have hsame : ∀ {listing : Answers (List String)} {t : Transcript} {s' : σ},
      tracker.Goes s (listing.transcript (.list pr) a.retryDelay ++ t) s' →
      listing.view = labelsRead (a.reading tracker pr s).1
        ∧ tracker.Goes (a.reading tracker pr s).2 t s' := by
    intro listing t s' h
    rw [← List.append_nil (answers.transcript _ _)] at hreading
    obtain ⟨rfl, s₁, hrest, hnil⟩ := Answers.unique Tracker.Goes.agree_list h hreading
    cases hnil
    exact ⟨view_eq_labelsRead hlast, hrest⟩
  cases course with
  | idle => exact absurd hfits hne
  | skipped listing label =>
    rw [Application.transcript, ← List.append_nil (listing.transcript _ _)] at hgoes
    obtain ⟨hview, -⟩ := hsame hgoes
    rw [Application.calls, Answers.filter_isAdd_calls_list, ← hview]
    exact .leftAlone hfits.2
  | carried listing turns =>
    obtain ⟨hview, hturns⟩ := hsame hgoes
    obtain ⟨-, hskip, hlabels, hfit⟩ := hfits
    rw [Application.calls, List.filter_append, Answers.filter_isAdd_calls_list, List.nil_append,
      Turn.filter_isAdd_calls, ← hview]
    exact .carried hskip hlabels hfit hturns

/-- A run is skipped for the label that the view asks for. -/
theorem GoesOn.skippedFor_eq {view : List String} {s : σ} {report : Report}
    {adds : List TrackerCall} (h : a.GoesOn tracker pr decision table view s report adds) :
    report.skippedFor = a.skipLabel? table decision view := by
  cases h with
  | leftAlone hlabel => exact hlabel.symm
  | carried hnone _ _ _ => exact hnone.symm

theorem GoesOn.adds_eq_nil {view : List String} {s : σ} {report : Report}
    {adds : List TrackerCall} (h : a.GoesOn tracker pr decision table view s report adds)
    (hskipped : report.skippedFor ≠ none) : adds = [] := by
  cases h with
  | leftAlone hlabel => rfl
  | carried hnone _ _ _ => exact absurd rfl hskipped

/-- **Views with the same labels lead to the same report and the same calls.** -/
theorem GoesOn.agree {R : σ → σ' → Prop} {view view' : List String} {s : σ} {s' : σ'}
    {report report' : Report} {adds adds' : List TrackerCall}
    (h : a.GoesOn tracker pr decision table view s report adds)
    (h' : a.GoesOn tracker' pr decision table view' s' report' adds')
    (halike : tracker.AddsAlike tracker' R) (hR : R s s') (hview : ∀ l, l ∈ view ↔ l ∈ view') :
    report' = report ∧ adds' = adds := by
  have hskip := a.skipLabel?_congr table decision hview
  cases h with
  | leftAlone hlabel =>
    cases h' with
    | leftAlone hlabel' =>
      cases hlabel.symm.trans (hskip.trans hlabel')
      exact ⟨rfl, rfl⟩
    | carried hnone' => cases hlabel.symm.trans (hskip.trans hnone')
  | @carried turns _ hnone hlabels hfits hgoes =>
    cases h' with
    | leftAlone hlabel' => cases hnone.symm.trans (hskip.trans hlabel')
    | @carried turns' _ hnone' hlabels' hfits' hgoes' =>
      -- the second tracker could have had the turns of the first
      obtain ⟨s₁', hmoved⟩ := halike.goes hgoes (fun pr' answer hmem => by
        obtain ⟨turn, -, hmem⟩ := List.mem_flatMap.mp hmem
        exact turn.list_not_mem_transcript pr a.retryDelay pr' answer hmem) hR
      have hfits₁ : ∀ turn ∈ turns, turn.Fits view' := fun turn hturn =>
        (Turn.fits_congr hview turn).mp (hfits turn hturn)
      obtain rfl := Turn.unique_list (hlabels'.trans hlabels.symm) hfits' hfits₁ hgoes' hmoved
      exact ⟨rfl, rfl⟩

/-! ## The label for which nothing is added -/

/--
**A pull request is left alone for the smallest label of the table that is not decided on.**

The first three parts are about one run over any tracker. An applier that looks for such a label
stops exactly if it has read one, and for the bytewise smallest of them; a run that stops has asked
for no label to be added; and no run stops whose applier does not look for one or could not read the
labels. The last part is about two runs over trackers that answer alike from then on: if the same
labels have been read, the reports are the same, and so are the calls to add labels.
-/
theorem skips_for_least_foreign (a : Applier) (tracker : Tracker (StateM σ)) (pr : Nat)
    {decision : Decision} (hne : decision.labels ≠ []) (table : RuleTable) (s : σ) :
    let report := ((a.apply tracker pr decision table).run s).1
    let adds := (a.recordedRun tracker pr decision table s).1.2.adds
    let read := a.reading tracker pr s
    (∀ labels, a.skipIfLabeled = true → read.1 = .ok labels →
        (report.skippedFor ≠ none ↔ ∃ l ∈ labels, Foreign table decision l)
          ∧ ∀ l, report.skippedFor = some l ↔ (l ∈ labels ∧ Foreign table decision l)
              ∧ ∀ l' ∈ labels, Foreign table decision l' → Text.bytes l ≤ Text.bytes l')
      ∧ (report.skippedFor ≠ none → adds = [])
      ∧ (a.skipIfLabeled = false ∨ (∃ e, read.1 = .error e) → report.skippedFor = none)
      ∧ ∀ {σ' : Type} (tracker' : Tracker (StateM σ')) (R : σ → σ' → Prop) (s' : σ')
          (labels labels' : List String), tracker.AddsAlike tracker' R →
          R read.2 (a.reading tracker' pr s').2 →
          read.1 = .ok labels → (a.reading tracker' pr s').1 = .ok labels' →
          (∀ l, l ∈ labels ↔ l ∈ labels') →
          ((a.apply tracker' pr decision table).run s').1 = report
            ∧ (a.recordedRun tracker' pr decision table s').1.2.adds = adds := by
  intro report adds read
  have hgoesOn : a.GoesOn tracker pr decision table (labelsRead read.1) read.2 report adds :=
    a.goesOn tracker pr table hne s
  have hskipped := hgoesOn.skippedFor_eq
  refine ⟨fun labels hskip hread => ?_, hgoesOn.adds_eq_nil, ?_, ?_⟩
  · have hview : labelsRead read.1 = labels := by rw [hread]; rfl
    rw [hview] at hskipped
    refine ⟨?_, fun l => ?_⟩
    · rw [hskipped, Ne, skipLabel?_eq_none_iff]
      simp [hskip]
    · rw [hskipped, skipLabel?_eq_some_iff]
      simp only [hskip, true_and, Text.bytes_le_bytes_iff]
  · rw [hskipped, skipLabel?_eq_none_iff]
    rintro (hskip | ⟨e, hread⟩)
    · rw [hskip]
      exact fun h => nomatch h
    · rw [hread]
      exact fun _ l hl => nomatch hl
  · intro σ' tracker' R s' labels labels' halike hR hread hread' hsame
    have hgoesOn' := a.goesOn tracker' pr table hne s'
    rw [hread] at hgoesOn
    rw [hread'] at hgoesOn'
    exact hgoesOn.agree hgoesOn' halike hR hsame

end Applier

/-! ## Listings in another order -/

/-- Two states hold the same labels, in any order and repeated at will, and the same labels will be
refused in them. -/
structure MemoryTracker.SameLabels (s s' : MemoryTracker) : Prop where
  labels : ∀ l, l ∈ s.labels ↔ l ∈ s'.labels
  addFaults : s.addFaults = s'.addFaults
  rejected : s.rejected = s'.rejected

theorem MemoryTracker.addsAlike_sameLabels : tracker.AddsAlike tracker SameLabels where
  add {s s'} h _ label := by
    have hfault : s.addFault? label = s'.addFault? label := by
      rw [addFault?, addFault?, h.addFaults, h.rejected]
    have htail : s.addFaults.tail = s'.addFaults.tail := congrArg List.tail h.addFaults
    show (s.add label).1 = (s'.add label).1 ∧ SameLabels (s.add label).2 (s'.add label).2
    rw [add, add, hfault]
    cases s'.addFault? label with
    | some e => exact ⟨rfl, h.labels, htail, h.rejected⟩
    | none =>
      refine ⟨rfl, fun l => ?_, htail, h.rejected⟩
      rw [mem_addLabel, mem_addLabel, h.labels l]
  pause h _ := h

/-- Two topics are listed in two orders, one of them after a transient fault. The smaller one is
reported. An applier that looks for no such label adds what is missing, after either listing. -/
theorem Applier.skips_for_least_foreign_reordered :
    let skipping : Applier := { skipIfLabeled := true }
    let adding : Applier := { skipIfLabeled := false }
    let decision : Decision := ⟨["t-order", "WIP"], .all⟩
    let s : MemoryTracker :=
      { labels := ["t-topology", "WIP", "t-algebra", "t-topology"]
        listFaults := [some (.api 502 "down")] }
    let s' : MemoryTracker := { labels := ["t-algebra", "t-topology", "WIP"] }
    let report := fun (a : Applier) s =>
      ((a.apply MemoryTracker.tracker 7 decision .twoTopics).run s).1
    let adds := fun (a : Applier) s =>
      (a.recordedRun MemoryTracker.tracker 7 decision .twoTopics s).1.2.adds
    decision.labels ≠ [] ∧ s.SameLabels s'
      ∧ (skipping.reading MemoryTracker.tracker 7 s).1 = .ok s.labels
      ∧ (report skipping s).skippedFor = some "t-algebra" ∧ adds skipping s = []
      ∧ report skipping s' = report skipping s
      ∧ report adding s = ⟨["t-order"], ["WIP"], [], none⟩ ∧ report adding s' = report adding s
      ∧ adds adding s' = [.add 7 "t-order"] := by
  intro skipping adding decision s s' report adds
  have hne : decision.labels ≠ [] := by decide
  have hsame : s.SameLabels s' := ⟨fun l => by grind, rfl, rfl⟩
  have hread : ∀ a : Applier, (a.reading MemoryTracker.tracker 7 s).1 = .ok s.labels := fun _ => rfl
  have hread' : ∀ a : Applier, (a.reading MemoryTracker.tracker 7 s').1 = .ok s'.labels :=
    fun _ => rfl
  have hstates : ∀ a : Applier, MemoryTracker.SameLabels (a.reading MemoryTracker.tracker 7 s).2
      (a.reading MemoryTracker.tracker 7 s').2 := fun _ => ⟨hsame.labels, rfl, rfl⟩
  obtain ⟨hskip, hadds, -, hagree⟩ :=
    skips_for_least_foreign skipping MemoryTracker.tracker 7 hne .twoTopics s
  obtain ⟨-, -, -, hagree'⟩ :=
    skips_for_least_foreign adding MemoryTracker.tracker 7 hne .twoTopics s
  have hforeign : ∀ l' ∈ s.labels,
      RuleTable.twoTopics.isKnownLabel l' = true ∧ l' ∉ decision.labels →
        Text.bytes "t-algebra" ≤ Text.bytes l' := by
    decide +kernel
  have hleast : (report skipping s).skippedFor = some "t-algebra" :=
    ((hskip s.labels rfl (hread skipping)).2 "t-algebra").mpr
      ⟨⟨by decide, by decide, by decide⟩, hforeign⟩
  obtain ⟨hreport, -⟩ := hagree MemoryTracker.tracker _ s' s.labels s'.labels
    MemoryTracker.addsAlike_sameLabels (hstates skipping) (hread skipping) (hread' skipping)
    hsame.labels
  obtain ⟨hreport', hadds'⟩ := hagree' MemoryTracker.tracker _ s' s.labels s'.labels
    MemoryTracker.addsAlike_sameLabels (hstates adding) (hread adding) (hread' adding)
    hsame.labels
  exact ⟨hne, hsame, hread skipping, hleast, hadds (by rw [hleast]; nofun), hreport, by decide,
    hreport', hadds'.trans (by decide)⟩

end PathLabels
