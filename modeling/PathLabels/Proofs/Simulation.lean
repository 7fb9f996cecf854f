import PathLabels.Applying
import PathLabels.Tracker.Journal

/-!
# Applying a decision over two trackers

`Applier.apply` knows its tracker only through its three operations. So a relation between programs
that holds of those operations, and that sequencing keeps, holds of the two applications as wholes.
Two uses stand here: writing down what is asked of a tracker does not change a run, and a tracker
with two states may be taken for one whose state is the pair of them.
-/

namespace PathLabels

/-- A relation between the programs over one tracker and those over another. -/
structure Simulation {m n : Type → Type} [Monad m] [Monad n] (tracker : Tracker m)
    (tracker' : Tracker n) where
  Relates : {α : Type} → m α → n α → Prop
  pure : ∀ {α : Type} (a : α), Relates (Pure.pure a) (Pure.pure a)
  bind : ∀ {α β : Type} {x : m α} {y : n α} {f : α → m β} {g : α → n β}, Relates x y →
    (∀ a, Relates (f a) (g a)) → Relates (x >>= f) (y >>= g)
  list : ∀ pr, Relates (tracker.list pr) (tracker'.list pr)
  add : ∀ pr label, Relates (tracker.add pr label) (tracker'.add pr label)
  pause : ∀ d, Relates (tracker.pause d) (tracker'.pause d)

namespace Simulation

variable {m n : Type → Type} [Monad m] [Monad n] {tracker : Tracker m} {tracker' : Tracker n}
  {α β : Type}

theorem relates_attempt (sim : Simulation tracker tracker') {pause : m Unit} {pause' : n Unit}
    {call : m (Except TrackerError α)} {call' : n (Except TrackerError α)}
    (hpause : sim.Relates pause pause') (hcall : sim.Relates call call') (number retries : Nat) :
    sim.Relates (Applier.attempt pause call number retries)
      (Applier.attempt pause' call' number retries) := by
  induction retries generalizing number with
  | zero => exact sim.bind hcall fun _ => sim.pure _
  | succ retries ih =>
    refine sim.bind hcall fun answer => ?_
    cases answer with
    | ok a => exact sim.pure _
    | error e =>
      dsimp only
      split
      · exact sim.bind hpause fun _ => ih _
      · exact sim.pure _

theorem relates_withRetry (sim : Simulation tracker tracker') (a : Applier)
    {call : m (Except TrackerError α)} {call' : n (Except TrackerError α)}
    (hcall : sim.Relates call call') :
    sim.Relates (a.withRetry tracker call) (a.withRetry tracker' call') :=
  sim.relates_attempt (sim.pause _) hcall 1 1

theorem relates_view (sim : Simulation tracker tracker') (a : Applier) (pr : Nat) :
    sim.Relates (a.view tracker pr) (a.view tracker' pr) := by
  refine sim.bind (sim.relates_withRetry a (sim.list pr)) fun tried => ?_
  cases tried.result with
  | ok labels => exact sim.pure _
  | error e => exact sim.pure _

theorem relates_applyLabel (sim : Simulation tracker tracker') (a : Applier) (pr : Nat)
    (view : List String) (report : Report) (label : String) :
    sim.Relates (a.applyLabel tracker pr view report label)
      (a.applyLabel tracker' pr view report label) := by
  rw [Applier.applyLabel, Applier.applyLabel]
  split
  · exact sim.pure _
  · refine sim.bind (sim.relates_withRetry a (sim.add pr label)) fun tried => ?_
    cases tried.result with
    | ok u => exact sim.pure _
    | error e => exact sim.pure _

theorem relates_foldlM (sim : Simulation tracker tracker') {f : β → α → m β} {g : β → α → n β}
    (h : ∀ b a, sim.Relates (f b a) (g b a)) (items : List α) (b : β) :
    sim.Relates (items.foldlM f b) (items.foldlM g b) := by
  induction items generalizing b with
  | nil => exact sim.pure b
  | cons a items ih =>
    rw [List.foldlM_cons, List.foldlM_cons]
    exact sim.bind (h b a) fun b' => ih b'

/-- **Related trackers give related applications.** -/
theorem relates_apply (sim : Simulation tracker tracker') (a : Applier) (pr : Nat)
    (decision : Decision) (table : RuleTable) :
    sim.Relates (a.apply tracker pr decision table) (a.apply tracker' pr decision table) := by
  rw [Applier.apply, Applier.apply]
  split
  · exact sim.pure _
  · refine sim.bind (sim.relates_view a pr) fun view => ?_
    split
    · exact sim.pure _
    · exact sim.relates_foldlM (sim.relates_applyLabel a pr view) _ _

end Simulation

/-! ## Recording -/

/-- A recorded program returns what the program itself returns and leaves the same state. -/
def Tracker.recordedSimulation {σ : Type} (tracker : Tracker (StateM σ)) :
    Simulation tracker.recorded tracker where
  Relates x y := ∀ journal s,
    (((x.run journal).run s).1.1, ((x.run journal).run s).2) = y.run s
  pure _ _ _ := rfl
  bind {_ _ x y f g} hx hf journal s := by
    have h := hf ((x.run journal).run s).1.1 ((x.run journal).run s).1.2 ((x.run journal).run s).2
    -- the second program starts from the value and the state that the first one left
    show _ = (g (y.run s).1).run (y.run s).2
    rw [← hx journal s]
    exact h
  list _ _ _ := rfl
  add _ _ _ _ := rfl
  pause _ _ _ := rfl

/-! ## Joining states -/

section

variable {σ κ α : Type}

/-- A program with two states, as a program whose state is the pair of them. -/
def joined (x : StateT κ (StateM σ) α) : StateM (κ × σ) α := fun s =>
  let ran := (x.run s.1).run s.2
  (ran.1.1, (ran.1.2, ran.2))

/-- A tracker with two states, as a tracker whose state is the pair of them. What is proved of every
tracker with a state then holds of a client, which has a state besides that of its network. -/
def Tracker.joined (tracker : Tracker (StateT κ (StateM σ))) : Tracker (StateM (κ × σ)) where
  list pr := PathLabels.joined (tracker.list pr)
  add pr label := PathLabels.joined (tracker.add pr label)
  pause d := PathLabels.joined (tracker.pause d)

def Tracker.joinedSimulation (tracker : Tracker (StateT κ (StateM σ))) :
    Simulation tracker tracker.joined where
  Relates x y := ∀ s, (PathLabels.joined x).run s = y.run s
  pure _ _ := rfl
  bind {_ _ x y f g} hx hf s := by
    have h := hf (y.run s).1 (y.run s).2
    -- the second program starts from the value and the states that the first one left
    rw [← hx s] at h
    rw [StateT.run_bind, ← hx s]
    exact h
  list _ _ := rfl
  add _ _ _ := rfl
  pause _ _ := rfl

/-- An application over two states is the one over their pair. -/
theorem Applier.run_joined (a : Applier) (tracker : Tracker (StateT κ (StateM σ))) (pr : Nat)
    (decision : Decision) (table : RuleTable) (c : κ) (s : σ) :
    let ran := ((a.apply tracker pr decision table).run c).run s
    (a.apply tracker.joined pr decision table).run (c, s) = (ran.1.1, (ran.1.2, ran.2)) :=
  (tracker.joinedSimulation.relates_apply a pr decision table (c, s)).symm

end

end PathLabels
