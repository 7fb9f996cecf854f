import PathLabels.GitHub.Client
import PathLabels.Host.World
import PathLabels.Proofs.Simulation

/-!
# What a program may do to its state

A run of git sends no request, and a request changes no file. Such facts are about single
operations of a host, but they are wanted of whole programs. An `Evolution` says how a state may
change, and it is closed under one change after another; so a program stays within it as soon as the
operations that it is made of do.
-/

namespace PathLabels

/-- One program after another starts from the value and the state that the first one left. -/
theorem StateM.run_bind {σ α β : Type} (x : StateM σ α) (f : α → StateM σ β) (s : σ) :
    (x >>= f).run s = (f (x.run s).1).run (x.run s).2 := rfl

/-- The ways in which a state may change while a program runs. -/
structure Evolution (σ : Type) where
  Allows : σ → σ → Prop
  refl : ∀ s, Allows s s
  trans : ∀ {s s₁ s'}, Allows s s₁ → Allows s₁ s' → Allows s s'

namespace Evolution

variable {σ κ ε α β : Type}

/-- A part of the state stays as it is. -/
def keeping {τ : Type} (part : σ → τ) : Evolution σ where
  Allows s s' := part s' = part s
  refl _ := rfl
  trans h h' := h'.trans h

variable (E : Evolution σ)

/-- The program changes the state in no other way. -/
def Bounds (x : StateM σ α) : Prop := ∀ s, E.Allows s (x.run s).2

/-- The same for a program that has a further state of its own. -/
def BoundsWith (x : StateT κ (StateM σ) α) : Prop := ∀ c, E.Bounds (x.run c)

variable {E}

theorem bounds_pure (a : α) : E.Bounds (pure a : StateM σ α) := E.refl

theorem Bounds.bind {x : StateM σ α} {f : α → StateM σ β} (hx : E.Bounds x)
    (hf : ∀ a, E.Bounds (f a)) : E.Bounds (x >>= f) :=
  fun s => E.trans (hx s) (hf (x.run s).1 (x.run s).2)

theorem Bounds.forM {f : α → StateM σ PUnit} (hf : ∀ a, E.Bounds (f a)) (items : List α) :
    E.Bounds (items.forM f) := by
  induction items with
  | nil => exact bounds_pure _
  | cons a items ih => exact (hf a).bind fun _ => ih

/-- A program that stops at a fault does no more than one that goes on. -/
theorem Bounds.bindExcept {x : ExceptT ε (StateM σ) α} {f : α → ExceptT ε (StateM σ) β}
    (hx : E.Bounds x.run) (hf : ∀ a, E.Bounds (f a).run) : E.Bounds (x >>= f).run := by
  refine Bounds.bind (f := ExceptT.bindCont f) hx fun result => ?_
  cases result with
  | ok a => exact hf a
  | error e => exact bounds_pure _

theorem boundsWith_pure (a : α) : E.BoundsWith (pure a : StateT κ (StateM σ) α) :=
  fun _ => bounds_pure _

theorem BoundsWith.bind {x : StateT κ (StateM σ) α} {f : α → StateT κ (StateM σ) β}
    (hx : E.BoundsWith x) (hf : ∀ a, E.BoundsWith (f a)) : E.BoundsWith (x >>= f) :=
  fun c s => E.trans (hx c s) (hf _ _ _)

theorem boundsWith_get : E.BoundsWith (get : StateT κ (StateM σ) κ) := fun _ => bounds_pure _

theorem boundsWith_set (c : κ) : E.BoundsWith (set c : StateT κ (StateM σ) PUnit) :=
  fun _ => bounds_pure _

theorem Bounds.lift {x : StateM σ α} (hx : E.Bounds x) :
    E.BoundsWith (liftM x : StateT κ (StateM σ) α) :=
  fun _ s => hx s

/-! ## Git -/

section Git

variable {git : Git (StateM σ)} (hgit : ∀ args, E.Bounds (git.run args))
include hgit

theorem bounds_start (args : List String) : E.Bounds (git.start args).run := by
  refine Bounds.bindExcept (Bounds.bind (hgit args) fun _ => bounds_pure _) fun answer => ?_
  cases answer with
  | ok output => exact bounds_pure _
  | error e => exact bounds_pure _

theorem bounds_resolve (fault : String → FetchError) (reference : String) :
    E.Bounds (git.resolve fault reference).run := by
  refine Bounds.bindExcept (Bounds.bind (hgit _) fun _ => bounds_pure _) fun answer => ?_
  cases answer with
  | ok output =>
    dsimp only
    split
    · exact bounds_pure _
    · exact bounds_pure _
  | error e => exact bounds_pure _

/-- Finding the changed files does what the runs of git do. -/
theorem bounds_changes (base head : String) : E.Bounds (git.changes base head).run := by
  rw [Git.changes]
  refine Bounds.bindExcept ?_ fun _ => ?_
  · exact Bounds.bindExcept (bounds_start hgit _) fun _ => bounds_pure _
  refine Bounds.bindExcept (bounds_resolve hgit _ _) fun baseCommit => ?_
  refine Bounds.bindExcept (bounds_resolve hgit _ _) fun headCommit => ?_
  refine Bounds.bindExcept (bounds_start hgit _) fun found => ?_
  split
  · exact bounds_pure _
  refine Bounds.bindExcept (bounds_pure _) fun mergeBase => ?_
  refine Bounds.bindExcept (bounds_start hgit _) fun diff => ?_
  split
  · exact bounds_pure _
  exact Bounds.bindExcept (bounds_pure _) fun text => bounds_pure _

end Git

/-! ## The client and applications over it -/

section Client

open GitHub Http

/-- Whatever is done over a network keeps to an evolution. -/
structure BoundsNetwork (E : Evolution σ) (network : Network (StateM σ)) : Prop where
  clock : E.Bounds network.clock
  send : ∀ request, E.Bounds (network.send request)
  wait : ∀ d, E.Bounds (network.wait d)

variable {network : Network (StateM σ)} (hnetwork : E.BoundsNetwork network)
include hnetwork

theorem boundsWith_perform (method : Method) (address : String) (body : Option Json.Value) :
    E.BoundsWith (Client.perform network method address body) := by
  refine boundsWith_get.bind fun c => (Bounds.lift hnetwork.clock).bind fun clock => ?_
  split
  · exact boundsWith_pure _
  split
  · exact boundsWith_pure _
  refine (Bounds.lift (hnetwork.send _)).bind fun answer => ?_
  cases answer with
  | error fault => exact boundsWith_pure _
  | ok r =>
    refine (Bounds.lift hnetwork.clock).bind fun clock => ?_
    exact (boundsWith_set _).bind fun _ => boundsWith_pure _

theorem boundsWith_list (pr : Nat) : E.BoundsWith (Client.list network pr) := by
  refine boundsWith_get.bind fun c => ?_
  refine (boundsWith_perform hnetwork _ _ _).bind fun answer => ?_
  cases answer with
  | error e => exact boundsWith_pure _
  | ok r =>
    dsimp only
    split
    · exact boundsWith_pure _
    split
    · exact boundsWith_pure _
    · exact boundsWith_pure _

theorem boundsWith_add (pr : Nat) (label : String) :
    E.BoundsWith (Client.add network pr label) := by
  refine boundsWith_get.bind fun c => ?_
  refine (boundsWith_perform hnetwork _ _ _).bind fun answer => ?_
  cases answer with
  | error e => exact boundsWith_pure _
  | ok r =>
    dsimp only
    split
    · exact boundsWith_pure _
    · exact boundsWith_pure _

/-- An application over the client does what the operations of the network do. -/
theorem boundsWith_apply (a : Applier) (pr : Nat) (decision : Decision) (table : RuleTable) :
    E.BoundsWith (a.apply (Client.tracker network) pr decision table) := by
  let sim : Simulation (Client.tracker network) (Client.tracker network) :=
    { Relates x _ := E.BoundsWith x
      pure := boundsWith_pure
      bind hx hf := hx.bind hf
      list := boundsWith_list hnetwork
      add := boundsWith_add hnetwork
      pause d := Bounds.lift (hnetwork.wait d) }
  exact sim.relates_apply a pr decision table

end Client

end Evolution

/-! ## Hosts in memory -/

namespace World

/-- The requests that have been sent, in order. -/
def requests (w : World) : List Event := w.events.filter Event.isRequest

/-- The files, and the directory in which relative paths are read. -/
def files (w : World) : FileTree × List String := (w.tree, w.workDir)

theorem bounds_readFile (E : Evolution World) (path : String) :
    E.Bounds (host.readFile path) := E.refl

/-- Git sends nothing. -/
theorem requests_runGit (directory : String) (args : List String) :
    (Evolution.keeping requests).Bounds ((host.git directory).run args) := by
  intro w
  show (w.runGit directory args).2.requests = w.requests
  rw [runGit]
  split
  · rfl
  split
  · rfl
  · exact (List.filter_append ..).trans (List.append_nil _)

/-- Git changes no file. -/
theorem files_runGit (directory : String) (args : List String) :
    (Evolution.keeping files).Bounds ((host.git directory).run args) := by
  intro w
  show (w.runGit directory args).2.files = w.files
  rw [runGit]
  split
  · rfl
  split
  · rfl
  · rfl

/-- Neither does a network. -/
theorem files_network : (Evolution.keeping files).BoundsNetwork host.network where
  clock _ := rfl
  send _ _ := rfl
  wait _ _ := rfl

end World

end PathLabels
