import PathLabels.Proofs.Skip
import PathLabels.Proofs.Turns

/-!
# The faults of one label stay with it

Labels are added one at a time, and each of them may fail, be tried once more, and fail for good.
None of that may change what becomes of another label: a decision is reported on as if each of its
labels had been a decision of its own.

A tracker is free to answer by anything that was asked of it before, and over such a tracker this is
not so. The law is about trackers whose answers in a run are laid down: what a listing answers
depends on how many there have been, and what an attempt to add a label answers on that label and on
how many attempts there have been for it. Over these the turn of a label is known from the label and
the view alone, as long as no label has its turn twice.
-/

namespace PathLabels

/-! ## Answers that are laid down -/

/-- What a tracker answers to each call of a run, by the number of earlier calls of that kind. -/
structure AnswerPlan where
  listing : (pr : Nat) → (earlier : Nat) → Except TrackerError (List String)
  adding : (pr : Nat) → (label : String) → (earlier : Nat) → Except TrackerError Unit

namespace Exchange

def isList (pr : Nat) : Exchange → Bool
  | list pr' _ => pr' == pr
  | add _ _ _ => false
  | pause _ => false

def isAdd (pr : Nat) (label : String) : Exchange → Bool
  | list _ _ => false
  | add pr' label' _ => pr' == pr && label' == label
  | pause _ => false

end Exchange

namespace AnswerPlan

/-- After what has been said `before` in a run, the exchange is as the plan has it. -/
def Allows (plan : AnswerPlan) (before : Transcript) : Exchange → Prop
  | .list pr answer => answer = plan.listing pr (before.countP (Exchange.isList pr))
  | .add pr label answer => answer = plan.adding pr label (before.countP (Exchange.isAdd pr label))
  | .pause _ => True

/-- After what has been said `before` in a run, all that is said is as the plan has it. -/
def Foretells (plan : AnswerPlan) (before : Transcript) : Transcript → Prop
  | [] => True
  | exchange :: t => plan.Allows before exchange ∧ plan.Foretells (before ++ [exchange]) t

theorem foretells_append {plan : AnswerPlan} {before t u : Transcript} :
    plan.Foretells before (t ++ u)
      ↔ plan.Foretells before t ∧ plan.Foretells (before ++ t) u := by
  induction t generalizing before with
  | nil => simp [Foretells]
  | cons exchange t ih =>
    rw [List.cons_append, Foretells, Foretells, ih, and_assoc, List.append_assoc]
    rfl

end AnswerPlan

/-- In a run from the state `s` the tracker keeps to the plan, whatever it is asked. -/
def Tracker.Follows {σ : Type} (tracker : Tracker (StateM σ)) (plan : AnswerPlan) (s : σ) : Prop :=
  ∀ t s', tracker.Goes s t s' → plan.Foretells [] t

/-- The tracker that keeps to a plan. Its state is what has been said in the run. -/
def AnswerPlan.tracker (plan : AnswerPlan) : Tracker (StateM Transcript) where
  list pr := fun t =>
    let answer := plan.listing pr (t.countP (Exchange.isList pr))
    (answer, t ++ [.list pr answer])
  add pr label := fun t =>
    let answer := plan.adding pr label (t.countP (Exchange.isAdd pr label))
    (answer, t ++ [.add pr label answer])
  pause d := fun t => ((), t ++ [.pause d])

theorem AnswerPlan.foretells_of_goes {plan : AnswerPlan} {before t s' : Transcript}
    (h : plan.tracker.Goes before t s') : plan.Foretells before t := by
  induction h with
  | nil => trivial
  | list hs _ ih => cases hs; exact ⟨rfl, ih⟩
  | add hs _ ih => cases hs; exact ⟨rfl, ih⟩
  | pause hs _ ih => cases hs; exact ⟨trivial, ih⟩

theorem AnswerPlan.follows_tracker (plan : AnswerPlan) : plan.tracker.Follows plan [] :=
  fun _ _ => foretells_of_goes

/-! ## Turns that are laid down -/

namespace Answers

variable {α : Type}

/-- How a call goes whose answers are laid down. -/
def planned (answer : Nat → Except TrackerError α) : Answers α :=
  match answer 0 with
  | .ok a => .once (.ok a) nofun
  | .error e =>
    if he : e.isTransient = true then .twice e he (answer 1)
    else .once (.error e) fun _ heq => by cases heq; exact Bool.eq_false_iff.mpr he

theorem once_eq_planned {answer : Nat → Except TrackerError α} {x : Except TrackerError α}
    (settled : ∀ e, x = .error e → e.isTransient = false) (hx : x = answer 0) :
    once x settled = planned answer := by
  subst hx
  unfold planned
  split
  · rename_i a ha
    simp only [ha]
  · rename_i e he
    have hsettled : ¬ e.isTransient = true := Bool.eq_false_iff.mp (settled e he)
    rw [dif_neg hsettled]
    simp only [he]

theorem twice_eq_planned {answer : Nat → Except TrackerError α} {fault : TrackerError}
    {x : Except TrackerError α} (transient : fault.isTransient = true)
    (hfault : .error fault = answer 0) (hx : x = answer 1) :
    twice fault transient x = planned answer := by
  unfold planned
  rw [← hfault, hx]
  dsimp only
  rw [dif_pos transient]

variable {plan : AnswerPlan} {before : Transcript} {answer : Nat → Except TrackerError α}
  {ask : Except TrackerError α → Exchange} {isCall : Exchange → Bool} {delay : Duration}

/-- A call that has not been made before in the run goes as the plan has it. -/
theorem eq_planned {answers : Answers α}
    (hask : ∀ t x, plan.Allows t (ask x) → x = answer (t.countP isCall))
    (hcall : ∀ x, isCall (ask x) = true) (hpause : isCall (.pause delay) = false)
    (hfirst : before.countP isCall = 0)
    (h : plan.Foretells before (answers.transcript ask delay)) : answers = planned answer := by
  cases answers with
  | once x settled =>
    have hx : x = answer (before.countP isCall) := hask before x h.1
    rw [hfirst] at hx
    exact once_eq_planned settled hx
  | twice fault transient x =>
    obtain ⟨h0, -, h1, -⟩ := h
    have hfault := hask before _ h0
    have hx := hask _ x h1
    -- the first attempt is the only one of the two calls before the second
    have hcount : ((before ++ [ask (.error fault)]) ++ [Exchange.pause delay]).countP isCall
        = 1 := by
      simp [List.countP_append, hfirst, hcall, hpause]
    rw [hfirst] at hfault
    rw [hcount] at hx
    exact twice_eq_planned transient hfault hx

end Answers

namespace Turn

variable {plan : AnswerPlan} {pr : Nat} {view : List String} {delay : Duration}

/-- How the turn of a label goes that has no turn before. -/
def planned (plan : AnswerPlan) (pr : Nat) (view : List String) (label : String) : Turn :=
  if label ∈ view then .present label else .asked label (.planned (plan.adding pr label))

theorem label_planned (label : String) : (planned plan pr view label).label = label := by
  unfold planned
  split
  · rfl
  · rfl

theorem eq_planned {turn : Turn} {before : Transcript} (hfits : turn.Fits view)
    (hfirst : before.countP (Exchange.isAdd pr turn.label) = 0)
    (h : plan.Foretells before (turn.transcript pr delay)) :
    turn = planned plan pr view turn.label := by
  cases turn with
  | present label => exact (if_pos hfits).symm
  | asked label answers =>
    have hanswers : answers = .planned (plan.adding pr label) :=
      Answers.eq_planned (fun t x (hx : plan.Allows t (.add pr label x)) => hx)
        (fun _ => by simp [Exchange.isAdd]) rfl hfirst h
    rw [hanswers]
    exact (if_neg hfits).symm

/-- In the turn of a label no other label is asked for. -/
theorem countP_isAdd_of_ne {turn : Turn} {l : String} (hne : turn.label ≠ l) :
    (turn.transcript pr delay).countP (Exchange.isAdd pr l) = 0 := by
  rw [List.countP_eq_zero]
  cases turn with
  | present label => exact fun _ h => nomatch h
  | asked label answers =>
    have hother : (label == l) = false := beq_eq_false_iff_ne.mpr hne
    cases answers with
    | once x settled => simp [transcript, Answers.transcript, Answers.all, Exchange.isAdd, hother]
    | twice fault transient x =>
      simp [transcript, Answers.transcript, Answers.all, Exchange.isAdd, hother]

/-- Turns of distinct labels, none of which has been asked for before, go as the plan has them. -/
theorem map_planned {turns : List Turn} {before : Transcript}
    (hfits : ∀ turn ∈ turns, turn.Fits view) (hnodup : (turns.map label).Nodup)
    (hfirst : ∀ l ∈ turns.map label, before.countP (Exchange.isAdd pr l) = 0)
    (h : plan.Foretells before (turns.flatMap (transcript pr delay))) :
    turns = (turns.map label).map (planned plan pr view) := by
  induction turns generalizing before with
  | nil => rfl
  | cons turn turns ih =>
    obtain ⟨hfit, hothers⟩ := List.forall_mem_cons.mp hfits
    obtain ⟨hnew, hnodup'⟩ := List.nodup_cons.mp hnodup
    obtain ⟨hfirst', hlater⟩ := List.forall_mem_cons.mp hfirst
    rw [List.flatMap_cons, AnswerPlan.foretells_append] at h
    have hrest : turns = (turns.map label).map (planned plan pr view) := by
      refine ih hothers hnodup' (fun l hl => ?_) h.2
      -- this turn was that of another label
      have hne : turn.label ≠ l := fun heq => hnew (heq ▸ hl)
      rw [List.countP_append, hlater l hl, countP_isAdd_of_ne hne]
    rw [List.map_cons, List.map_cons, ← eq_planned hfit hfirst' h.1, ← hrest]

/-- What is read off turns one after the other is read off each of them alone. -/
theorem filterMap_planned {α : Type} (f : Turn → Option α) (labels : List String) :
    (labels.map (planned plan pr view)).filterMap f
      = labels.flatMap fun l => [planned plan pr view l].filterMap f := by
  induction labels with
  | nil => rfl
  | cons l labels ih =>
    rw [List.map_cons, List.flatMap_cons, ← ih, ← List.filterMap_append]
    rfl

end Turn

/-! ## Applications over a plan -/

/-- The view that a listing gives whose answers are laid down. -/
def AnswerPlan.view (plan : AnswerPlan) (pr : Nat) : List String :=
  (Answers.planned (plan.listing pr)).view

namespace Applier

variable {σ : Type} {a : Applier} {tracker : Tracker (StateM σ)} {plan : AnswerPlan} {s : σ}

theorem skipLabel?_of_not_skipIfLabeled (hskip : a.skipIfLabeled = false) (table : RuleTable)
    (decision : Decision) (view : List String) : a.skipLabel? table decision view = none :=
  skipLabel?_eq_none_iff.mpr fun h => absurd h (by rw [hskip]; exact Bool.false_ne_true)

/-- The report of an application is put together from the turns of its labels, each as the plan has
it. -/
theorem report_of_follows (hskip : a.skipIfLabeled = false) (hfollows : tracker.Follows plan s)
    (pr : Nat) {decision : Decision} (hnodup : decision.labels.Nodup) (table : RuleTable) :
    ((a.apply tracker pr decision table).run s).1
      = Turn.report (decision.labels.map (Turn.planned plan pr (plan.view pr))) := by
  obtain ⟨course, hfits, hgoes, -, -, -, hrun⟩ :=
    a.apply_follows_protocol tracker pr decision table s
  rw [hrun]
  have hplan := hfollows _ _ hgoes
  cases course with
  | idle =>
    have hempty : decision.labels = [] := hfits
    rw [hempty]
    rfl
  | skipped listing label =>
    cases (skipLabel?_of_not_skipIfLabeled hskip table decision listing.view).symm.trans hfits.2
  | carried listing turns =>
    obtain ⟨-, -, hlabels, hfit⟩ := hfits
    obtain ⟨hlisting, hturns⟩ := AnswerPlan.foretells_append.mp hplan
    have hplanned : listing = .planned (plan.listing pr) :=
      Answers.eq_planned (fun t x (hx : plan.Allows t (.list pr x)) => hx)
        (fun _ => by simp [Exchange.isList]) rfl rfl hlisting
    have hview : listing.view = plan.view pr := by rw [hplanned]; rfl
    rw [hview] at hfit
    -- the calls of the listing ask for no label
    have hfirst : ∀ l, (listing.transcript (.list pr) a.retryDelay).countP (Exchange.isAdd pr l)
        = 0 := by
      intro l
      rw [List.countP_eq_zero]
      cases listing with
      | once x settled => simp [Answers.transcript, Answers.all, Exchange.isAdd]
      | twice fault transient x => simp [Answers.transcript, Answers.all, Exchange.isAdd]
    have hall := Turn.map_planned hfit (hlabels ▸ hnodup) (fun l _ => hfirst l) hturns
    rw [hlabels] at hall
    show Turn.report turns = _
    rw [← hall]

end Applier

/-! ## Reports on several labels and on one -/

/-- What a report says that is on one label. -/
inductive Report.OnOne (l : String) : Report → Prop where
  | applied : OnOne l { applied := [l] }
  | present : OnOne l { alreadyPresent := [l] }
  | failed (attempts : Nat) (cause : TrackerError) : OnOne l { failed := [⟨l, attempts, cause⟩] }

/-- Two reports have a label in the same list, and if it failed, with the same fault after as many
attempts. -/
structure Report.AgreeOn (r r' : Report) (l : String) : Prop where
  applied : l ∈ r.applied ↔ l ∈ r'.applied
  alreadyPresent : l ∈ r.alreadyPresent ↔ l ∈ r'.alreadyPresent
  failed : ∀ e : ApplyError, e.label = l → (e ∈ r.failed ↔ e ∈ r'.failed)

/-- A report is that on some labels, put together from the reports on each of them, in order. -/
structure Report.Joins (r : Report) (labels : List String) (on : String → Report) : Prop where
  applied : r.applied = labels.flatMap fun l => (on l).applied
  alreadyPresent : r.alreadyPresent = labels.flatMap fun l => (on l).alreadyPresent
  failed : r.failed = labels.flatMap fun l => (on l).failed
  skippedFor : r.skippedFor = none

/-- Two reports differ in the order of their lists only. -/
structure Report.Rearranges (r r' : Report) : Prop where
  applied : r.applied.Perm r'.applied
  alreadyPresent : r.alreadyPresent.Perm r'.alreadyPresent
  failed : r.failed.Perm r'.failed
  skippedFor : r.skippedFor = r'.skippedFor

namespace Report

variable {r r' : Report} {labels labels' : List String} {on : String → Report}

/-- Nothing stands in a report on one label that is about another. -/
theorem OnOne.all_on {l : String} (h : OnOne l r) :
    (∀ l' ∈ r.applied, l' = l) ∧ (∀ l' ∈ r.alreadyPresent, l' = l)
      ∧ ∀ e ∈ r.failed, e.label = l := by
  cases h with
  | applied => simp
  | present => simp
  | failed attempts cause => simp

/-- Where each list is filed under its own label, an entry is found in the list of its label. -/
theorem mem_flatMap_iff {β : Type} {file : String → List β} (key : β → String) {x : β}
    (hfile : ∀ l, ∀ y ∈ file l, key y = l) (hx : key x ∈ labels) :
    x ∈ labels.flatMap file ↔ x ∈ file (key x) := by
  rw [List.mem_flatMap]
  constructor
  · rintro ⟨l, -, hmem⟩
    exact hfile l x hmem ▸ hmem
  · exact fun hmem => ⟨key x, hx, hmem⟩

theorem Joins.agreeOn (h : r.Joins labels on) (hone : ∀ l, OnOne l (on l)) {l : String}
    (hl : l ∈ labels) : r.AgreeOn (on l) l where
  applied := by
    rw [h.applied]
    exact mem_flatMap_iff id (fun l' => (hone l').all_on.1) hl
  alreadyPresent := by
    rw [h.alreadyPresent]
    exact mem_flatMap_iff id (fun l' => (hone l').all_on.2.1) hl
  failed e he := by
    subst he
    rw [h.failed]
    exact mem_flatMap_iff ApplyError.label (fun l' => (hone l').all_on.2.2) hl

theorem Joins.rearranges (h : r.Joins labels on) (h' : r'.Joins labels' on)
    (hperm : labels'.Perm labels) : r'.Rearranges r where
  applied := by rw [h.applied, h'.applied]; exact hperm.flatMap_right _
  alreadyPresent := by rw [h.alreadyPresent, h'.alreadyPresent]; exact hperm.flatMap_right _
  failed := by rw [h.failed, h'.failed]; exact hperm.flatMap_right _
  skippedFor := by rw [h.skippedFor, h'.skippedFor]

end Report

theorem Turn.onOne_report (turn : Turn) : Report.OnOne turn.label (Turn.report [turn]) := by
  cases turn with
  | present label => exact .present
  | asked label answers =>
    cases hlast : answers.last with
    | ok u => simpa [report, applied?, present?, failure?, hlast] using .applied
    | error e => simpa [report, applied?, present?, failure?, hlast] using .failed _ _

namespace Applier

variable {σ : Type} {a : Applier} {tracker : Tracker (StateM σ)} {plan : AnswerPlan} {s s₁ : σ}

/-- The report on a decision is put together from those on its labels as decisions of their own. -/
theorem joins_report (hskip : a.skipIfLabeled = false) (hfollows : tracker.Follows plan s)
    (pr : Nat) {decision : Decision} (hnodup : decision.labels.Nodup) (table : RuleTable) :
    ((a.apply tracker pr decision table).run s).1.Joins decision.labels fun l =>
      Turn.report [Turn.planned plan pr (plan.view pr) l] := by
  rw [report_of_follows hskip hfollows pr hnodup table]
  exact ⟨Turn.filterMap_planned _ _, Turn.filterMap_planned _ _, Turn.filterMap_planned _ _, rfl⟩

theorem report_alone (hskip : a.skipIfLabeled = false) (hfollows : tracker.Follows plan s)
    (pr : Nat) (l : String) (policy : Policy) (table : RuleTable) :
    ((a.apply tracker pr ⟨[l], policy⟩ table).run s).1
      = Turn.report [Turn.planned plan pr (plan.view pr) l] :=
  report_of_follows hskip hfollows pr (by simp) table

/--
**What becomes of a label does not depend on the other labels.**

Two runs of a tracker that keeps to a plan, one from the state `s` and one from `s₁`, are compared;
no label is looked for that would make them stop. Applied alone, a label is in exactly one list. A
decision of distinct labels has each of them in the list where it is alone, and a failed one with
the same fault after as many attempts; its lists are those of its labels alone, one after the other.
So the order of the decision is the order of the lists and nothing else.
-/
theorem faults_stay_with_label (hskip : a.skipIfLabeled = false) (hs : tracker.Follows plan s)
    (hs₁ : tracker.Follows plan s₁) (pr : Nat) {decision : Decision}
    (hnodup : decision.labels.Nodup) (table : RuleTable) :
    let report := ((a.apply tracker pr decision table).run s).1
    let alone := fun l => ((a.apply tracker pr ⟨[l], decision.policy⟩ table).run s₁).1
    (∀ l, (alone l).OnOne l)
      ∧ (∀ l ∈ decision.labels, report.AgreeOn (alone l) l)
      ∧ report.Joins decision.labels alone
      ∧ ∀ other : Decision, other.labels.Perm decision.labels →
          ((a.apply tracker pr other table).run s₁).1.Rearranges report := by
  intro report alone
  have halone : alone = fun l => Turn.report [Turn.planned plan pr (plan.view pr) l] :=
    funext fun l => report_alone hskip hs₁ pr l decision.policy table
  have hone : ∀ l, (alone l).OnOne l := by
    intro l
    rw [halone]
    have hone := Turn.onOne_report (Turn.planned plan pr (plan.view pr) l)
    rwa [Turn.label_planned] at hone
  have hjoins : report.Joins decision.labels alone := halone ▸ joins_report hskip hs pr hnodup table
  refine ⟨hone, fun l hl => hjoins.agreeOn hone hl, hjoins, fun other hperm => ?_⟩
  have hother : ((a.apply tracker pr other table).run s₁).1.Joins other.labels alone :=
    halone ▸ joins_report hskip hs₁ pr (hperm.nodup_iff.mpr hnodup) table
  exact hjoins.rearranges hother hperm

end Applier

/-- A label is there, one is added at the second attempt, one is refused, and one meets a transient
fault twice. The listing succeeds at its second attempt. -/
def AnswerPlan.mixed : AnswerPlan where
  listing _ earlier := if earlier = 0 then .error (.api 502 "down") else .ok ["WIP", "t-order"]
  adding _ label earlier :=
    if label = "t-algebra" then
      if earlier = 0 then .error (.http (.noResponse "http://h")) else .ok ()
    else if label = "t-logic" then .error (.api 422 "no")
    else if label = "t-topology" then .error (.api (500 + earlier) "down")
    else .ok ()

/-- The refused label comes before the others and the unlucky one last, and then the other way
round. -/
theorem Applier.faults_stay_with_label_mixed :
    let a : Applier := { skipIfLabeled := false }
    let run := fun labels =>
      ((a.apply AnswerPlan.mixed.tracker 7 ⟨labels, .all⟩ .twoTopics).run []).1
    let labels := ["t-logic", "t-order", "t-algebra", "t-topology"]
    a.skipIfLabeled = false ∧ AnswerPlan.mixed.tracker.Follows .mixed [] ∧ labels.Nodup
      ∧ run labels = ⟨["t-algebra"], ["t-order"],
          [⟨"t-logic", 1, .api 422 "no"⟩, ⟨"t-topology", 2, .api 501 "down"⟩], none⟩
      ∧ (run labels).AgreeOn (run ["t-topology"]) "t-topology"
      ∧ (run labels.reverse).Rearranges (run labels) := by
  intro a run labels
  have hfollows := AnswerPlan.mixed.follows_tracker
  have hnodup : (Decision.mk labels .all).labels.Nodup := by decide
  obtain ⟨-, hagree, -, hperm⟩ :=
    faults_stay_with_label (a := a) rfl hfollows hfollows 7 hnodup .twoTopics
  exact ⟨rfl, hfollows, hnodup, by decide, hagree "t-topology" (by decide),
    hperm ⟨labels.reverse, .all⟩ (List.reverse_perm labels)⟩

end PathLabels
