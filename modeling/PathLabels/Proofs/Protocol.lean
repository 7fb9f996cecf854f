import PathLabels.Proofs.Simulation
import PathLabels.Proofs.Transcript

/-!
# What applying a decision asks of the tracker

The shape of an application is data: how the listing went, and how the turn of each label of the
decision went. From such a shape one reads off the calls, the time slept and the report. The theorem
at the end says that every application of every decision has a shape that fits the decision, whatever
the tracker answers.

The shapes are correct by construction. A call that is answered `once` carries the proof that the
answer gave no reason to ask again, and one that is answered `twice` that the first answer did.
-/

namespace PathLabels

/-- The answers to a call that is made once more after a transient fault. -/
inductive Answers (α : Type) where
  /-- The first answer is no transient fault, and it stands. -/
  | once (answer : Except TrackerError α)
      (settled : ∀ e, answer = .error e → e.isTransient = false)
  /-- The first call meets a transient fault, and the answer to the second stands. -/
  | twice (fault : TrackerError) (transient : fault.isTransient = true)
      (answer : Except TrackerError α)

namespace Answers

variable {α : Type}

/-- All answers, in order: one for each call that was really made. -/
def all : Answers α → List (Except TrackerError α)
  | once answer _ => [answer]
  | twice fault _ answer => [.error fault, answer]

/-- The answer that stands. -/
def last : Answers α → Except TrackerError α
  | once answer _ => answer
  | twice _ _ answer => answer

def isTwice : Answers α → Bool
  | once _ _ => false
  | twice _ _ _ => true

/-- The calls with their answers. Nothing but the pause stands between two of them. -/
def transcript (answers : Answers α) (ask : Except TrackerError α → Exchange) (delay : Duration) :
    Transcript :=
  (answers.all.map ask).intersperse (.pause delay)

def calls (answers : Answers α) (call : TrackerCall) : List TrackerCall :=
  answers.all.map fun _ => call

/-- The labels that a listing read; none if it failed in the end. -/
def view (answers : Answers (List String)) : List String :=
  match answers.last with
  | .ok labels => labels
  | .error _ => []

end Answers

/-- How the turn of one label of a decision went. -/
inductive Turn where
  /-- The label was there already, and nothing was asked. -/
  | present (label : String)
  /-- The tracker was asked to add the label. -/
  | asked (label : String) (answers : Answers Unit)

namespace Turn

def label : Turn → String
  | present label => label
  | asked label _ => label

/-- A label has its turn without a call exactly if it is in the view. -/
def Fits (view : List String) : Turn → Prop
  | present label => label ∈ view
  | asked label _ => label ∉ view

instance (view : List String) : (turn : Turn) → Decidable (turn.Fits view)
  | present label => inferInstanceAs (Decidable (label ∈ view))
  | asked label _ => inferInstanceAs (Decidable (label ∉ view))

def isTwice : Turn → Bool
  | present _ => false
  | asked _ answers => answers.isTwice

def transcript (pr : Nat) (delay : Duration) : Turn → Transcript
  | present _ => []
  | asked label answers => answers.transcript (.add pr label) delay

def calls (pr : Nat) : Turn → List TrackerCall
  | present _ => []
  | asked label answers => answers.calls (.add pr label)

def present? : Turn → Option String
  | present label => some label
  | asked _ _ => none

def applied? : Turn → Option String
  | present _ => none
  | asked label answers =>
    match answers.last with
    | .ok () => some label
    | .error _ => none

/-- The fault with which a label ended: the last one, after as many attempts as there were calls. -/
def failure? : Turn → Option ApplyError
  | present _ => none
  | asked label answers =>
    match answers.last with
    | .ok () => none
    | .error e => some ⟨label, answers.all.length, e⟩

/-- What turns say in a report. -/
def report (turns : List Turn) : Report :=
  { applied := turns.filterMap applied?, alreadyPresent := turns.filterMap present?,
    failed := turns.filterMap failure? }

end Turn

/-- How applying a decision went. -/
inductive Application where
  /-- There was nothing to apply, and nothing was asked. -/
  | idle
  /-- The pull request was left alone for a label that the listing read. -/
  | skipped (listing : Answers (List String)) (label : String)
  /-- Each label of the decision had its turn. -/
  | carried (listing : Answers (List String)) (turns : List Turn)

namespace Application

/-- Whether a decision can be applied in this way. -/
def Fits (a : Applier) (table : RuleTable) (decision : Decision) : Application → Prop
  | idle => decision.labels = []
  | skipped listing label =>
    decision.labels ≠ [] ∧ a.skipLabel? table decision listing.view = some label
  | carried listing turns =>
    decision.labels ≠ [] ∧ a.skipLabel? table decision listing.view = none
      ∧ turns.map Turn.label = decision.labels ∧ ∀ turn ∈ turns, turn.Fits listing.view

def transcript (pr : Nat) (delay : Duration) : Application → Transcript
  | idle => []
  | skipped listing _ => listing.transcript (.list pr) delay
  | carried listing turns =>
    listing.transcript (.list pr) delay ++ turns.flatMap (Turn.transcript pr delay)

def calls (pr : Nat) : Application → List TrackerCall
  | idle => []
  | skipped listing _ => listing.calls (.list pr)
  | carried listing turns => listing.calls (.list pr) ++ turns.flatMap (Turn.calls pr)

/-- The number of calls that were made because the one before failed. -/
def secondCalls : Application → Nat
  | idle => 0
  | skipped listing _ => listing.isTwice.toNat
  | carried listing turns => listing.isTwice.toNat + turns.countP Turn.isTwice

def report : Application → Report
  | idle => {}
  | skipped _ label => { skippedFor := some label }
  | carried _ turns => Turn.report turns

end Application

/-! ## Every conversation has such a shape -/

/-- A report after one more turn. -/
def Report.record (report : Report) (turn : Turn) : Report :=
  { report with
    applied := report.applied ++ turn.applied?.toList
    alreadyPresent := report.alreadyPresent ++ turn.present?.toList
    failed := report.failed ++ turn.failure?.toList }

theorem filterMap_concat {α β : Type} (f : α → Option β) (items : List α) (a : α) :
    (items ++ [a]).filterMap f = items.filterMap f ++ (f a).toList := by
  rw [List.filterMap_append, List.filterMap_cons]
  cases f a <;> rfl

theorem Turn.report_concat (turns : List Turn) (turn : Turn) :
    Turn.report (turns ++ [turn]) = (Turn.report turns).record turn := by
  simp only [Turn.report, filterMap_concat]
  rfl

namespace Conversation

variable {m : Type → Type} [Monad m] {tracker : Tracker m} {α : Type}

/-- A call is made a second time exactly if the first answer is a transient fault. -/
theorem ensures_withRetry (c : Conversation tracker) (a : Applier)
    {call : m (Except TrackerError α)} {ask : Except TrackerError α → Exchange}
    (hcall : c.Ensures call fun answer t => t = [ask answer]) :
    c.Ensures (a.withRetry tracker call) fun tried t =>
      ∃ answers : Answers α, tried = ⟨answers.last, answers.all.length⟩
        ∧ t = answers.transcript ask a.retryDelay := by
  refine c.bind hcall fun answer t ht => ?_
  subst ht
  cases answer with
  | ok value => exact c.pure ⟨.once (.ok value) (by simp), rfl, rfl⟩
  | error e =>
    dsimp only
    split
    · rename_i he
      refine c.bind (c.pause a.retryDelay) fun _ t ht => ?_
      subst ht
      refine c.bind hcall fun answer t ht => ?_
      subst ht
      exact c.pure ⟨.twice e he answer, rfl, rfl⟩
    · rename_i he
      exact c.pure ⟨.once (.error e) (by simpa using he), rfl, rfl⟩

theorem ensures_view (c : Conversation tracker) (a : Applier) (pr : Nat) :
    c.Ensures (a.view tracker pr) fun view t => ∃ listing : Answers (List String),
      view = listing.view ∧ t = listing.transcript (.list pr) a.retryDelay := by
  refine c.bind (c.ensures_withRetry a (c.list pr)) ?_
  rintro _ _ ⟨listing, rfl, rfl⟩
  cases h : listing.last with
  | ok labels => exact c.pure ⟨listing, by rw [Answers.view, h], List.append_nil _⟩
  | error e => exact c.pure ⟨listing, by rw [Answers.view, h], List.append_nil _⟩

theorem ensures_applyLabel (c : Conversation tracker) (a : Applier) (pr : Nat)
    (view : List String) (report : Report) (label : String) :
    c.Ensures (a.applyLabel tracker pr view report label) fun report' t => ∃ turn : Turn,
      turn.label = label ∧ turn.Fits view ∧ report' = report.record turn
        ∧ t = turn.transcript pr a.retryDelay := by
  rw [Applier.applyLabel]
  split
  · rename_i hmem
    exact c.pure ⟨.present label, rfl, hmem, by simp [Report.record, Turn.applied?,
      Turn.present?, Turn.failure?], rfl⟩
  · rename_i hmem
    refine c.bind (c.ensures_withRetry a (c.add pr label)) ?_
    rintro _ _ ⟨answers, rfl, rfl⟩
    cases h : answers.last with
    | ok u =>
      exact c.pure ⟨.asked label answers, rfl, hmem, by simp [Report.record, Turn.applied?,
        Turn.present?, Turn.failure?, h], List.append_nil _⟩
    | error e =>
      exact c.pure ⟨.asked label answers, rfl, hmem, by simp [Report.record, Turn.applied?,
        Turn.present?, Turn.failure?, h], List.append_nil _⟩

/-- The labels have their turns in order. The report so far is that of the turns so far. -/
theorem ensures_applyLabels (c : Conversation tracker) (a : Applier) (pr : Nat)
    (view : List String) (labels : List String) (before : List Turn) :
    c.Ensures (labels.foldlM (a.applyLabel tracker pr view) (Turn.report before))
      fun report t => ∃ turns : List Turn, turns.map Turn.label = labels
        ∧ (∀ turn ∈ turns, turn.Fits view) ∧ report = Turn.report (before ++ turns)
        ∧ t = turns.flatMap (Turn.transcript pr a.retryDelay) := by
  induction labels generalizing before with
  | nil => exact c.pure ⟨[], rfl, by simp, by rw [List.append_nil], rfl⟩
  | cons label labels ih =>
    rw [List.foldlM_cons]
    refine c.bind (c.ensures_applyLabel a pr view (Turn.report before) label) ?_
    rintro _ _ ⟨turn, rfl, hfits, rfl, rfl⟩
    -- the report after this turn is again the report of the turns so far
    rw [← Turn.report_concat]
    refine c.mono (ih (before ++ [turn])) ?_
    rintro _ _ ⟨turns, rfl, hall, rfl, rfl⟩
    refine ⟨turn :: turns, rfl, ?_, by rw [List.append_assoc]; rfl, rfl⟩
    intro other hother
    rcases List.mem_cons.mp hother with rfl | h
    · exact hfits
    · exact hall other h

/-- **An application has a shape that fits its decision**, and its report is that of the shape. -/
theorem ensures_apply (c : Conversation tracker) (a : Applier) (pr : Nat) (decision : Decision)
    (table : RuleTable) :
    c.Ensures (a.apply tracker pr decision table) fun report t => ∃ course : Application,
      course.Fits a table decision ∧ report = course.report
        ∧ t = course.transcript pr a.retryDelay := by
  rw [Applier.apply]
  split
  · rename_i hempty
    exact c.pure ⟨.idle, List.isEmpty_iff.mp hempty, rfl, rfl⟩
  · rename_i hempty
    have hne : decision.labels ≠ [] := fun h => hempty (by rw [Decision.isEmpty, h]; rfl)
    refine c.bind (c.ensures_view a pr) ?_
    rintro _ _ ⟨listing, rfl, rfl⟩
    cases hskip : a.skipLabel? table decision listing.view with
    | some label =>
      exact c.pure ⟨.skipped listing label, ⟨hne, hskip⟩, rfl, List.append_nil _⟩
    | none =>
      refine c.mono (c.ensures_applyLabels a pr listing.view decision.labels []) ?_
      rintro _ _ ⟨turns, hlabels, hfits, rfl, rfl⟩
      exact ⟨.carried listing turns, ⟨hne, hskip, hlabels, hfits⟩, rfl, rfl⟩

end Conversation

/-! ## There is one such shape -/

section

variable {σ : Type} {tracker : Tracker (StateM σ)} {s s' s'' : σ} {t t' : Transcript} {pr : Nat}
  {delay : Duration}

/-- How often a call was made follows from the first answer, so if the answers to the call follow
from the state, all of it does. -/
theorem Answers.unique {α : Type} {ask : Except TrackerError α → Exchange}
    {answers answers' : Answers α}
    (hask : ∀ {s answer answer' t t'}, tracker.Goes s (ask answer :: t) s' →
      tracker.Goes s (ask answer' :: t') s'' →
      answer = answer' ∧ ∃ s₁, tracker.Goes s₁ t s' ∧ tracker.Goes s₁ t' s'')
    (h : tracker.Goes s (answers.transcript ask delay ++ t) s')
    (h' : tracker.Goes s (answers'.transcript ask delay ++ t') s'') :
    answers = answers' ∧ ∃ s₁, tracker.Goes s₁ t s' ∧ tracker.Goes s₁ t' s'' := by
  cases answers with
  | once answer settled =>
    cases answers' with
    | once answer' settled' =>
      obtain ⟨rfl, hrest⟩ := hask h h'
      exact ⟨rfl, hrest⟩
    | twice fault' transient' answer' =>
      obtain ⟨rfl, _⟩ := hask h h'
      rw [settled fault' rfl] at transient'
      cases transient'
  | twice fault transient answer =>
    cases answers' with
    | once answer' settled' =>
      obtain ⟨rfl, _⟩ := hask h h'
      rw [settled' fault rfl] at transient
      cases transient
    | twice fault' transient' answer' =>
      obtain ⟨hfault, s₁, hrest, hrest'⟩ := hask h h'
      cases hfault
      obtain ⟨s₂, hrest, hrest'⟩ := hrest.agree_pause hrest'
      obtain ⟨rfl, hrest⟩ := hask hrest hrest'
      exact ⟨rfl, hrest⟩

/-- How the turn of a label went follows from the state and the view. -/
theorem Turn.unique {turn turn' : Turn} {view : List String} (hlabel : turn.label = turn'.label)
    (hfits : turn.Fits view) (hfits' : turn'.Fits view)
    (h : tracker.Goes s (turn.transcript pr delay ++ t) s')
    (h' : tracker.Goes s (turn'.transcript pr delay ++ t') s'') :
    turn = turn' ∧ ∃ s₁, tracker.Goes s₁ t s' ∧ tracker.Goes s₁ t' s'' := by
  cases turn with
  | present label =>
    cases turn' with
    | present label' =>
      cases hlabel
      exact ⟨rfl, s, h, h'⟩
    | asked label' answers' =>
      cases hlabel
      exact absurd hfits hfits'
  | asked label answers =>
    cases turn' with
    | present label' =>
      cases hlabel
      exact absurd hfits' hfits
    | asked label' answers' =>
      cases hlabel
      obtain ⟨rfl, hrest⟩ := Answers.unique Tracker.Goes.agree_add h h'
      exact ⟨rfl, hrest⟩

theorem Turn.unique_list {turns turns' : List Turn} {view : List String}
    (hlabels : turns.map label = turns'.map label) (hfits : ∀ turn ∈ turns, turn.Fits view)
    (hfits' : ∀ turn ∈ turns', turn.Fits view)
    (h : tracker.Goes s (turns.flatMap (transcript pr delay)) s')
    (h' : tracker.Goes s (turns'.flatMap (transcript pr delay)) s'') : turns = turns' := by
  induction turns generalizing turns' s with
  | nil => exact (List.map_eq_nil_iff.mp hlabels.symm).symm
  | cons turn turns ih =>
    cases turns' with
    | nil => cases hlabels
    | cons turn' turns' =>
      obtain ⟨hlabel, htail⟩ := List.cons.inj hlabels
      obtain ⟨hfit, hothers⟩ := List.forall_mem_cons.mp hfits
      obtain ⟨hfit', hothers'⟩ := List.forall_mem_cons.mp hfits'
      obtain ⟨rfl, s₁, hrest, hrest'⟩ := Turn.unique hlabel hfit hfit' h h'
      rw [ih htail hothers hothers' hrest hrest']

/-- **An application has one shape.** -/
theorem Application.unique {a : Applier} {table : RuleTable} {decision : Decision}
    {course course' : Application} (hfits : course.Fits a table decision)
    (hfits' : course'.Fits a table decision)
    (h : tracker.Goes s (course.transcript pr delay) s')
    (h' : tracker.Goes s (course'.transcript pr delay) s'') : course = course' := by
  cases course with
  | idle =>
    cases course' with
    | idle => rfl
    | skipped listing' label' => exact absurd hfits hfits'.1
    | carried listing' turns' => exact absurd hfits hfits'.1
  | skipped listing label =>
    replace h : tracker.Goes s (listing.transcript (.list pr) delay ++ []) s' := by
      rwa [List.append_nil]
    cases course' with
    | idle => exact absurd hfits' hfits.1
    | skipped listing' label' =>
      replace h' : tracker.Goes s (listing'.transcript (.list pr) delay ++ []) s'' := by
        rwa [List.append_nil]
      obtain ⟨rfl, _⟩ := Answers.unique Tracker.Goes.agree_list h h'
      rw [Option.some.inj (hfits.2.symm.trans hfits'.2)]
    | carried listing' turns' =>
      obtain ⟨rfl, _⟩ := Answers.unique Tracker.Goes.agree_list h h'
      cases hfits.2.symm.trans hfits'.2.1
  | carried listing turns =>
    cases course' with
    | idle => exact absurd hfits' hfits.1
    | skipped listing' label' =>
      replace h' : tracker.Goes s (listing'.transcript (.list pr) delay ++ []) s'' := by
        rwa [List.append_nil]
      obtain ⟨rfl, _⟩ := Answers.unique Tracker.Goes.agree_list h h'
      cases hfits.2.1.symm.trans hfits'.2
    | carried listing' turns' =>
      obtain ⟨rfl, s₁, hrest, hrest'⟩ := Answers.unique Tracker.Goes.agree_list h h'
      rw [Turn.unique_list (hfits.2.2.1.trans hfits'.2.2.1.symm) hfits.2.2.2 hfits'.2.2.2 hrest
        hrest']

end

/-! ## What the shape says about the journal -/

/-- A journal with further calls, and with `again` further pauses of one length. -/
def Journal.add (journal : Journal) (calls : List TrackerCall) (again : Nat) (delay : Duration) :
    Journal :=
  { calls := journal.calls ++ calls, slept := ⟨journal.slept.nanos + delay.nanos * again⟩ }

theorem Journal.add_nil (journal : Journal) (delay : Duration) :
    journal.add [] 0 delay = journal := by
  simp [Journal.add]

theorem Journal.add_add (journal : Journal) (calls calls' : List TrackerCall) (n n' : Nat)
    (delay : Duration) :
    (journal.add calls n delay).add calls' n' delay
      = journal.add (calls ++ calls') (n + n') delay := by
  simp only [Journal.add, List.append_assoc, Nat.mul_add, Nat.add_assoc]

/-- A call that is answered twice is made twice, with one pause. -/
theorem Journal.extend_answers {α : Type} (journal : Journal) (answers : Answers α)
    {ask : Except TrackerError α → Exchange} {call : TrackerCall} (delay : Duration)
    (hask : ∀ journal answer, Journal.note journal (ask answer) = journal.call call) :
    journal.extend (answers.transcript ask delay)
      = journal.add (answers.calls call) answers.isTwice.toNat delay := by
  cases answers with
  | once answer settled =>
    show journal.note (ask answer) = _
    rw [hask]
    simp [Journal.call, Journal.add, Answers.calls, Answers.all, Answers.isTwice]
  | twice fault transient answer =>
    show ((journal.note (ask (.error fault))).note (.pause delay)).note (ask answer) = _
    rw [hask, hask]
    simp only [Journal.note, Journal.call, Journal.sleep, Journal.add, Answers.calls, Answers.all,
      Answers.isTwice, Bool.toNat_true, List.append_assoc, Nat.mul_one]
    rfl

theorem Journal.extend_turn (journal : Journal) (turn : Turn) (pr : Nat) (delay : Duration) :
    journal.extend (turn.transcript pr delay)
      = journal.add (turn.calls pr) turn.isTwice.toNat delay := by
  cases turn with
  | present label => exact (journal.add_nil delay).symm
  | asked label answers => exact journal.extend_answers answers delay fun _ _ => rfl

theorem Journal.extend_turns (journal : Journal) (turns : List Turn) (pr : Nat)
    (delay : Duration) :
    journal.extend (turns.flatMap (Turn.transcript pr delay))
      = journal.add (turns.flatMap (Turn.calls pr)) (turns.countP Turn.isTwice) delay := by
  induction turns generalizing journal with
  | nil => exact (journal.add_nil delay).symm
  | cons turn turns ih =>
    rw [List.flatMap_cons, Journal.extend_append, Journal.extend_turn, ih, Journal.add_add,
      List.flatMap_cons, List.countP_cons, Nat.add_comm]
    cases turn.isTwice <;> rfl

theorem Journal.extend_application (journal : Journal) (course : Application) (pr : Nat)
    (delay : Duration) :
    journal.extend (course.transcript pr delay)
      = journal.add (course.calls pr) course.secondCalls delay := by
  cases course with
  | idle => exact (journal.add_nil delay).symm
  | skipped listing label => exact journal.extend_answers listing delay fun _ _ => rfl
  | carried listing turns =>
    rw [Application.transcript, Journal.extend_append,
      journal.extend_answers listing delay fun _ _ => rfl, Journal.extend_turns, Journal.add_add]
    rfl

/-! ## The protocol -/

namespace Applier

/-- Applies a decision from the state `s` and writes down what is asked of the tracker. -/
def recordedRun {σ : Type} (a : Applier) (tracker : Tracker (StateM σ)) (pr : Nat)
    (decision : Decision) (table : RuleTable) (s : σ) : (Report × Journal) × σ :=
  ((a.apply tracker.recorded pr decision table).run {}).run s

variable {σ : Type} (a : Applier) (tracker : Tracker (StateM σ)) (pr : Nat) (decision : Decision)
  (table : RuleTable) (s : σ)

/-- Report and journal of a run are those of one shape, which the tracker's answers bear out. -/
theorem recordedRun_shape :
    ∃ course : Application, course.Fits a table decision
      ∧ tracker.Goes s (course.transcript pr a.retryDelay)
          (a.recordedRun tracker pr decision table s).2
      ∧ (a.recordedRun tracker pr decision table s).1
          = (course.report, Journal.add {} (course.calls pr) course.secondCalls a.retryDelay) := by
  obtain ⟨t, hgoes, hjournal, course, hfits, hreport, rfl⟩ :=
    tracker.recordedConversation.ensures_apply a pr decision table {} s
  rw [Journal.extend_application] at hjournal
  exact ⟨course, hfits, hgoes, Prod.ext hreport hjournal⟩

/-- The recorded run is the run itself. -/
theorem run_eq_recordedRun :
    (a.apply tracker pr decision table).run s
      = ((a.recordedRun tracker pr decision table s).1.1,
          (a.recordedRun tracker pr decision table s).2) :=
  (tracker.recordedSimulation.relates_apply a pr decision table {} s).symm

/-- The report of an application is that of a shape which fits its decision. -/
theorem exists_course :
    ∃ course : Application, course.Fits a table decision
      ∧ ((a.apply tracker pr decision table).run s).1 = course.report := by
  obtain ⟨course, hfits, _, hrun⟩ := a.recordedRun_shape tracker pr decision table s
  exact ⟨course, hfits, by rw [a.run_eq_recordedRun, hrun]⟩

/--
**The protocol of one application**, for every tracker with a state and whatever it answers.

There is a shape that fits the decision such that the tracker's own answers, from the state `s` on,
are those of the shape; the calls made are those of the shape and no others; the time slept is one
delay for each second call; and the report is that of the shape, attempts and faults included. That
the run is recorded makes no difference to it.
-/
theorem apply_follows_protocol :
    ∃ course : Application, course.Fits a table decision
      ∧ tracker.Goes s (course.transcript pr a.retryDelay)
          (a.recordedRun tracker pr decision table s).2
      ∧ (a.recordedRun tracker pr decision table s).1.2.calls = course.calls pr
      ∧ (a.recordedRun tracker pr decision table s).1.2.slept.nanos
          = a.retryDelay.nanos * course.secondCalls
      ∧ (a.recordedRun tracker pr decision table s).1.1 = course.report
      ∧ (a.apply tracker pr decision table).run s
          = (course.report, (a.recordedRun tracker pr decision table s).2) := by
  obtain ⟨course, hfits, hgoes, hrun⟩ := a.recordedRun_shape tracker pr decision table s
  refine ⟨course, hfits, hgoes, ?_, ?_, ?_, ?_⟩
  · rw [hrun]; exact List.nil_append _
  · rw [hrun]; exact Nat.zero_add _
  · rw [hrun]
  · rw [a.run_eq_recordedRun, hrun]

end Applier

end PathLabels
