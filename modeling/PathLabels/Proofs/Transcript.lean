import PathLabels.Applying
import PathLabels.Tracker.Journal

/-!
# Transcripts

A program over a tracker is known from outside by two things: what it returns, and the calls and
pauses it makes, each call with the answer that it got. This file is the bookkeeping for that.

`Conversation` is a way to say of a program both at once. Its rules follow the program: a value
needs no exchange, and a program after another adds its exchanges to those of the first. What is
proved by these rules alone then holds of every tracker that has such a conversation, whatever its
state is and however it answers; here of every tracker with a state, while its calls are recorded.
-/

namespace PathLabels

/-- A call to a tracker with its answer, or a pause. -/
inductive Exchange where
  | list (pr : Nat) (answer : Except TrackerError (List String))
  | add (pr : Nat) (label : String) (answer : Except TrackerError Unit)
  | pause (d : Duration)

/-- What was said between a program and a tracker, in order. -/
abbrev Transcript := List Exchange

/--
A way to say what a program returns and which exchanges it makes.

`Ensures x Q` is meant as: however the tracker answers, `x` returns some `a` after some exchanges
`t` with `Q a t`.
-/
structure Conversation {m : Type → Type} [Monad m] (tracker : Tracker m) where
  Ensures : {α : Type} → m α → (α → Transcript → Prop) → Prop
  pure : ∀ {α : Type} {a : α} {Q : α → Transcript → Prop}, Q a [] → Ensures (Pure.pure a) Q
  bind : ∀ {α β : Type} {x : m α} {f : α → m β} {Q : α → Transcript → Prop}
    {R : β → Transcript → Prop}, Ensures x Q →
    (∀ a t, Q a t → Ensures (f a) fun b u => R b (t ++ u)) → Ensures (x >>= f) R
  mono : ∀ {α : Type} {x : m α} {Q R : α → Transcript → Prop}, Ensures x Q →
    (∀ a t, Q a t → R a t) → Ensures x R
  list : ∀ pr, Ensures (tracker.list pr) fun answer t => t = [.list pr answer]
  add : ∀ pr label, Ensures (tracker.add pr label) fun answer t => t = [.add pr label answer]
  pause : ∀ d, Ensures (tracker.pause d) fun _ t => t = [.pause d]

namespace Tracker

variable {σ : Type}

/-- Asked in the state `s`, the tracker answers as the transcript says and ends in the state `s'`. -/
inductive Goes (tracker : Tracker (StateM σ)) : σ → Transcript → σ → Prop where
  | nil {s : σ} : Goes tracker s [] s
  | list {s s₁ s' : σ} {t : Transcript} {pr : Nat} {answer : Except TrackerError (List String)} :
      (tracker.list pr).run s = (answer, s₁) → Goes tracker s₁ t s' →
      Goes tracker s (.list pr answer :: t) s'
  | add {s s₁ s' : σ} {t : Transcript} {pr : Nat} {label : String}
      {answer : Except TrackerError Unit} :
      (tracker.add pr label).run s = (answer, s₁) → Goes tracker s₁ t s' →
      Goes tracker s (.add pr label answer :: t) s'
  | pause {s s₁ s' : σ} {t : Transcript} {d : Duration} :
      (tracker.pause d).run s = ((), s₁) → Goes tracker s₁ t s' →
      Goes tracker s (.pause d :: t) s'

theorem Goes.append {tracker : Tracker (StateM σ)} {s s₁ s' : σ} {t u : Transcript}
    (h : Goes tracker s t s₁) (h' : Goes tracker s₁ u s') : Goes tracker s (t ++ u) s' := by
  induction h with
  | nil => exact h'
  | list hs _ ih => exact .list hs (ih h')
  | add hs _ ih => exact .add hs (ih h')
  | pause hs _ ih => exact .pause hs (ih h')

theorem Goes.split {tracker : Tracker (StateM σ)} {s s' : σ} {t u : Transcript}
    (h : Goes tracker s (t ++ u) s') : ∃ s₁, Goes tracker s t s₁ ∧ Goes tracker s₁ u s' := by
  induction t generalizing s with
  | nil => exact ⟨s, .nil, h⟩
  | cons exchange t ih =>
    cases h with
    | list hs hrest => obtain ⟨s₁, h₁, h₂⟩ := ih hrest; exact ⟨s₁, .list hs h₁, h₂⟩
    | add hs hrest => obtain ⟨s₁, h₁, h₂⟩ := ih hrest; exact ⟨s₁, .add hs h₁, h₂⟩
    | pause hs hrest => obtain ⟨s₁, h₁, h₂⟩ := ih hrest; exact ⟨s₁, .pause hs h₁, h₂⟩

/-! What a tracker answers follows from its state, and so does the state after it. -/

section

variable {tracker : Tracker (StateM σ)} {s s' s'' : σ} {t t' : Transcript}

theorem Goes.agree_list {pr : Nat} {answer answer' : Except TrackerError (List String)}
    (h : Goes tracker s (.list pr answer :: t) s') (h' : Goes tracker s (.list pr answer' :: t') s'') :
    answer = answer' ∧ ∃ s₁, Goes tracker s₁ t s' ∧ Goes tracker s₁ t' s'' := by
  cases h with
  | list hs hrest =>
    cases h' with
    | list hs' hrest' =>
      rw [hs] at hs'
      cases hs'
      exact ⟨rfl, _, hrest, hrest'⟩

theorem Goes.agree_add {pr : Nat} {label : String} {answer answer' : Except TrackerError Unit}
    (h : Goes tracker s (.add pr label answer :: t) s')
    (h' : Goes tracker s (.add pr label answer' :: t') s'') :
    answer = answer' ∧ ∃ s₁, Goes tracker s₁ t s' ∧ Goes tracker s₁ t' s'' := by
  cases h with
  | add hs hrest =>
    cases h' with
    | add hs' hrest' =>
      rw [hs] at hs'
      cases hs'
      exact ⟨rfl, _, hrest, hrest'⟩

theorem Goes.agree_pause {d : Duration} (h : Goes tracker s (.pause d :: t) s')
    (h' : Goes tracker s (.pause d :: t') s'') :
    ∃ s₁, Goes tracker s₁ t s' ∧ Goes tracker s₁ t' s'' := by
  cases h with
  | pause hs hrest =>
    cases h' with
    | pause hs' hrest' =>
      rw [hs] at hs'
      cases hs'
      exact ⟨_, hrest, hrest'⟩

/-- What was said decides where the tracker ends. -/
theorem Goes.unique (h : Goes tracker s t s') (h' : Goes tracker s t s'') : s' = s'' := by
  induction t generalizing s with
  | nil =>
    cases h
    cases h'
    rfl
  | cons exchange t ih =>
    cases exchange with
    | list pr answer =>
      obtain ⟨_, _, hrest, hrest'⟩ := h.agree_list h'
      exact ih hrest hrest'
    | add pr label answer =>
      obtain ⟨_, _, hrest, hrest'⟩ := h.agree_add h'
      exact ih hrest hrest'
    | pause d =>
      obtain ⟨_, hrest, hrest'⟩ := h.agree_pause h'
      exact ih hrest hrest'

end

end Tracker

/-! ## Journals are kept along -/

/-- What a journal holds after one more exchange. -/
def Journal.note (journal : Journal) : Exchange → Journal
  | .list pr _ => journal.call (.list pr)
  | .add pr label _ => journal.call (.add pr label)
  | .pause d => journal.sleep d

/-- What a journal holds after a transcript. -/
def Journal.extend (journal : Journal) (t : Transcript) : Journal := t.foldl Journal.note journal

theorem Journal.extend_append (journal : Journal) (t u : Transcript) :
    journal.extend (t ++ u) = (journal.extend t).extend u := by
  rw [Journal.extend, List.foldl_append]
  rfl

/-- **Every recorded tracker has a conversation**, the one that really takes place, and its journal is
that of the exchanges. -/
def Tracker.recordedConversation {σ : Type} (tracker : Tracker (StateM σ)) :
    Conversation tracker.recorded where
  Ensures x Q := ∀ journal s, ∃ t, tracker.Goes s t ((x.run journal).run s).2
    ∧ ((x.run journal).run s).1.2 = journal.extend t ∧ Q ((x.run journal).run s).1.1 t
  pure hq journal s := ⟨[], .nil, rfl, hq⟩
  bind hx hf journal s := by
    obtain ⟨t, hgoes, hj, hq⟩ := hx journal s
    obtain ⟨u, hgoes', hj', hr⟩ := hf _ _ hq _ _
    refine ⟨t ++ u, hgoes.append hgoes', ?_, hr⟩
    rw [Journal.extend_append, ← hj]
    exact hj'
  mono hx h journal s := by
    obtain ⟨t, hgoes, hj, hq⟩ := hx journal s
    exact ⟨t, hgoes, hj, h _ _ hq⟩
  list _ _ _ := ⟨_, .list rfl .nil, rfl, rfl⟩
  add _ _ _ _ := ⟨_, .add rfl .nil, rfl, rfl⟩
  pause _ _ _ := ⟨_, .pause rfl .nil, rfl, rfl⟩

end PathLabels
