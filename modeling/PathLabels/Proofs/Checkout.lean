import PathLabels.Proofs.Evolution

/-!
# What a run learns comes from the checkout

The rule table and the changes are read from the files and from git. Nothing else of a host is asked
before the decision is known, so two hosts with the same files and the same git come to the same
decision, whatever else they hold: what has been printed, what is on standard input, how the network
answers.

`Alike` says so of programs: from states that agree in what matters they return the same, and the
states that they leave agree again.
-/

namespace PathLabels

/-- From states that `R` relates, two programs return the same and leave states that `R` relates. -/
def Alike {σ τ α : Type} (R : σ → τ → Prop) (x : StateM σ α) (y : StateM τ α) : Prop :=
  ∀ s t, R s t → (x.run s).1 = (y.run t).1 ∧ R (x.run s).2 (y.run t).2

namespace Alike

variable {σ τ ε α β : Type} {R : σ → τ → Prop}

theorem pure (a : α) : Alike R (Pure.pure a) (Pure.pure a) := fun _ _ h => ⟨rfl, h⟩

theorem bind {x : StateM σ α} {y : StateM τ α} {f : α → StateM σ β} {g : α → StateM τ β}
    (hx : Alike R x y) (hf : ∀ a, Alike R (f a) (g a)) : Alike R (x >>= f) (y >>= g) := by
  intro s t h
  obtain ⟨hvalue, hstate⟩ := hx s t h
  rw [StateM.run_bind, StateM.run_bind, hvalue]
  exact hf _ _ _ hstate

theorem bindExcept {x : ExceptT ε (StateM σ) α} {y : ExceptT ε (StateM τ) α}
    {f : α → ExceptT ε (StateM σ) β} {g : α → ExceptT ε (StateM τ) β}
    (hx : Alike R x.run y.run) (hf : ∀ a, Alike R (f a).run (g a).run) :
    Alike R (x >>= f).run (y >>= g).run := by
  refine bind (f := ExceptT.bindCont f) (g := ExceptT.bindCont g) hx fun result => ?_
  cases result with
  | ok a => exact hf a
  | error e => exact pure _

/-! ## Git -/

section

variable {git : Git (StateM σ)} {git' : Git (StateM τ)}
  (hgit : ∀ args, Alike R (git.run args) (git'.run args))
include hgit

theorem start (args : List String) : Alike R (git.start args).run (git'.start args).run := by
  refine bindExcept (bind (hgit args) fun _ => pure _) fun answer => ?_
  cases answer with
  | ok output => exact pure _
  | error e => exact pure _

theorem resolve (fault : String → FetchError) (reference : String) :
    Alike R (git.resolve fault reference).run (git'.resolve fault reference).run := by
  refine bindExcept (bind (hgit _) fun _ => pure _) fun answer => ?_
  cases answer with
  | ok output =>
    dsimp only
    split
    · exact pure _
    · exact pure _
  | error e => exact pure _

/-- Gits that answer alike find the same changes. -/
theorem changes (base head : String) :
    Alike R (git.changes base head).run (git'.changes base head).run := by
  rw [Git.changes, Git.changes]
  refine bindExcept ?_ fun _ => ?_
  · exact bindExcept (start hgit _) fun _ => pure _
  refine bindExcept (resolve hgit _ _) fun baseCommit => ?_
  refine bindExcept (resolve hgit _ _) fun headCommit => ?_
  refine bindExcept (start hgit _) fun found => ?_
  split
  · exact pure _
  refine bindExcept (pure _) fun mergeBase => ?_
  refine bindExcept (start hgit _) fun diff => ?_
  split
  · exact pure _
  exact bindExcept (pure _) fun text => pure _

end

end Alike

/-! ## What git finds -/

/-- What a program returns, if it does not stop at a fault, has a property. -/
def Yields {σ ε α : Type} (P : α → Prop) (x : ExceptT ε (StateM σ) α) : Prop :=
  ∀ s a, (StateT.run x.run s).1 = .ok a → P a

namespace Yields

variable {σ ε α β : Type} {P : β → Prop}

theorem pure {b : β} (h : P b) : Yields P (Pure.pure b : ExceptT ε (StateM σ) β) := by
  rintro s b' hb
  cases hb
  exact h

theorem throw (e : ε) : Yields P (MonadExcept.throw e : ExceptT ε (StateM σ) β) := by
  rintro s b' hb
  cases hb

/-- The last step decides. -/
theorem bind {x : ExceptT ε (StateM σ) α} {f : α → ExceptT ε (StateM σ) β}
    (hf : ∀ a, Yields P (f a)) : Yields P (x >>= f) := by
  intro s b hb
  have hrun : (x >>= f).run = x.run >>= ExceptT.bindCont f := rfl
  rw [hrun, StateM.run_bind] at hb
  cases hx : (x.run.run s).1 with
  | ok a =>
    rw [hx] at hb
    exact hf a _ b hb
  | error e =>
    rw [hx] at hb
    cases hb

end Yields

/-- The changes that git finds are what some entries stand for. -/
theorem Git.yields_changes {σ : Type} (git : Git (StateM σ)) (base head : String) :
    Yields (fun changes => ∃ entries, changes = ChangeSet.ofList entries)
      (git.changes base head) := by
  rw [Git.changes]
  refine .bind fun _ => .bind fun _ => .bind fun _ => .bind fun found => ?_
  split
  · exact .throw _
  refine .bind fun _ => .bind fun diff => ?_
  split
  · exact .throw _
  exact .bind fun text => .pure ⟨_, rfl⟩

/-! ## Worlds with one checkout -/

/-- Two worlds have the same files and the same git. -/
structure World.SameCheckout (w w' : World) : Prop where
  tree : w'.tree = w.tree
  workDir : w'.workDir = w.workDir
  git : w'.git = w.git

namespace World

theorem SameCheckout.refl (w : World) : w.SameCheckout w := ⟨rfl, rfl, rfl⟩

theorem alike_runGit (directory : String) (args : List String) :
    Alike SameCheckout ((host.git directory).run args) ((host.git directory).run args) := by
  rintro w w' ⟨htree, hplace, hgit⟩
  show (w.runGit directory args).1 = (w'.runGit directory args).1
    ∧ SameCheckout (w.runGit directory args).2 (w'.runGit directory args).2
  rw [runGit, runGit, htree, hplace, hgit]
  cases w.tree.resolveDirectory w.workDir directory with
  | error e => exact ⟨rfl, htree, hplace, hgit⟩
  | ok place =>
    rcases w.git.run args with ⟨_ | output, git⟩
    · exact ⟨rfl, rfl, rfl, rfl⟩
    · exact ⟨rfl, rfl, rfl, rfl⟩

end World

end PathLabels
