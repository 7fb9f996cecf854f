import Mathlib.Logic.Relation
import PathLabels.Glob.Reading

/-!
# What reading a glob can do

The scanner of globs has many cases, but there are few things that it can do to what it has read so far:
it adds a token, opens, divides or closes an alternation, or puts a component of two stars in the place
of the token before it. `Edit` lists them, and every character, and the end of the text, makes only such
edits. What each of the edits keeps is then kept by reading a text.

Two stars take in the slash before them. That it is a slash is known from the character before them, so
the scanner has to tell, next to the tokens, which character it has read last.
-/

namespace PathLabels.Glob.Scanner

variable {s s' : Scanner} {c : Char}

/-- Outside of alternations, if the last token is a character that stands for itself, the scanner still
knows that it has read this character last, unless it is about to read what is no part of a component
of two stars. -/
def Recalls (s : Scanner) : Prop :=
  s.groups = [] → ∀ c, s.tokens.getLast? = some (.literal c) →
    match s.mode with
    | .plain => s.last = some c
    | .star => s.last = some c
    | .stars previous => previous = some c
    | _ => True

/-- What a scanner does at once to what it has read. -/
inductive Edit (s s' : Scanner) : Prop where
  | stay (hgroups : s'.groups = s.groups) (htokens : s'.tokens = s.tokens)
  | push (t : Token) (ht : t ≠ .leading) (hgroups : s'.groups = s.groups)
      (htokens : s'.tokens = s.tokens ++ [t])
  /-- `**/` at the beginning of a branch. -/
  | lead (hempty : s.tokens = []) (hgroups : s'.groups = s.groups)
      (htokens : s'.tokens = [.leading])
  /-- Two stars take the place of the token before them, which outside of alternations is no character
  but a slash. -/
  | cross (t : Token) (ht : t = .between ∨ t = .trailing) (hne : s.tokens ≠ [])
      (hslash : s.groups = [] → ∀ c, s.tokens.getLast? = some (.literal c) → c = '/')
      (hgroups : s'.groups = s.groups) (htokens : s'.tokens = (s.crossing t).tokens)
  | openGroup (hgroups : s'.groups = ⟨s.tokens, []⟩ :: s.groups) (htokens : s'.tokens = [])
  | comma {g : Group} {groups : List Group} (hopen : s.groups = g :: groups)
      (hgroups : s'.groups = { g with branches := g.branches ++ [s.tokens] } :: groups)
      (htokens : s'.tokens = [])
  | closeGroup {g : Group} {groups : List Group} (hopen : s.groups = g :: groups)
      (hgroups : s'.groups = groups)
      (htokens : s'.tokens = g.before ++ [.alternates (g.branches ++ [s.tokens])])

/-- One edit after another. -/
abbrev Edits : Scanner → Scanner → Prop := Relation.ReflTransGen Edit

/-! ## Characters -/

/-- A scanner whose last token is no character has nothing to recall. -/
theorem recalls_of_concat {ts : List Token} {t : Token} (h : s.tokens = ts ++ [t])
    (ht : ∀ c, t ≠ .literal c) : s.Recalls := by
  intro _ c hlast
  rw [h, List.getLast?_concat] at hlast
  exact absurd (Option.some.inj hlast) (ht c)

theorem recalls_of_nil (h : s.tokens = []) : s.Recalls := by
  intro _ c hlast
  rw [h] at hlast
  cases hlast

theorem edit_plainStep (h : s.Recalls) (hmode : s.mode = .plain)
    (hstep : s.plainStep c = .ok s') : Edit s s' ∧ s'.Recalls := by
  unfold plainStep at hstep
  split at hstep
  · cases hstep
    exact ⟨.push .any nofun rfl rfl, recalls_of_concat rfl nofun⟩
  · cases hstep
    refine ⟨.stay rfl rfl, fun hgroups c hlast => ?_⟩
    have hrecalled := h hgroups c hlast
    rw [hmode] at hrecalled
    exact hrecalled
  · cases hstep
    exact ⟨.stay rfl rfl, fun _ _ _ => trivial⟩
  · cases hstep
    exact ⟨.openGroup rfl rfl, recalls_of_nil rfl⟩
  · unfold closeGroup at hstep
    cases hgroups : s.groups with
    | nil => rw [hgroups] at hstep; cases hstep
    | cons g groups =>
      rw [hgroups] at hstep
      cases hstep
      exact ⟨.closeGroup hgroups rfl rfl, recalls_of_concat rfl nofun⟩
  · cases hstep
    unfold comma
    cases hgroups : s.groups with
    | nil =>
      refine ⟨.push (.literal ',') nofun rfl rfl, fun _ c hlast => ?_⟩
      simp only [Scanner.push, List.getLast?_concat, Option.some.injEq, Token.literal.injEq] at hlast
      rw [← hlast]
    | cons g groups => exact ⟨.comma hgroups rfl rfl, recalls_of_nil rfl⟩
  · cases hstep
    exact ⟨.stay rfl rfl, fun _ _ _ => trivial⟩
  · cases hstep
    refine ⟨.push (.literal _) nofun rfl rfl, fun _ c hlast => ?_⟩
    simp only [Scanner.push, List.getLast?_concat, Option.some.injEq, Token.literal.injEq] at hlast
    rw [← hlast]

/-- A character that is read after other edits. -/
theorem edits_plainStep {s₁ : Scanner} (hedits : Edits s s₁) (h : s₁.Recalls)
    (hmode : s₁.mode = .plain) (hstep : s₁.plainStep c = .ok s') : Edits s s' ∧ s'.Recalls := by
  obtain ⟨hedit, hrecalls⟩ := edit_plainStep h hmode hstep
  exact ⟨hedits.tail hedit, hrecalls⟩

theorem edits_twoStars (s : Scanner) : Edits s s.twoStars :=
  (Relation.ReflTransGen.single (.push .star nofun rfl rfl)).tail
    (b := s.push .star) (.push .star nofun rfl rfl)

theorem recalls_twoStars (s : Scanner) : s.twoStars.Recalls := recalls_of_concat rfl nofun

/-- The last token after a component of two stars is no character. -/
theorem recalls_crossing {t : Token} (ht : t = .between ∨ t = .trailing)
    (h : s'.tokens = (s.crossing t).tokens) : s'.Recalls := by
  unfold crossing at h
  refine recalls_of_concat h fun c => ?_
  split
  · nofun
  · nofun
  · rcases ht with rfl | rfl <;> nofun

/-- Two stars that begin a component do so after a slash. -/
theorem slash_of_mayBeginComponent {previous : Option Char} (h : s.Recalls)
    (hmode : s.mode = .stars previous) (hbegin : s.mayBeginComponent previous = true)
    (hgroups : s.groups = []) : ∀ c, s.tokens.getLast? = some (.literal c) → c = '/' := by
  intro c hlast
  have hrecalled := h hgroups c hlast
  rw [hmode] at hrecalled
  subst hrecalled
  simpa [mayBeginComponent, hgroups] using hbegin

theorem edits_starsStep {previous : Option Char} (h : s.Recalls) (hmode : s.mode = .stars previous)
    (hstep : s.starsStep previous c = .ok s') : Edits s s' ∧ s'.Recalls := by
  have htwo : s.twoStars.plainStep c = .ok s' → Edits s s' ∧ s'.Recalls :=
    edits_plainStep (edits_twoStars s) (recalls_twoStars s) rfl
  unfold starsStep at hstep
  split at hstep
  · rename_i hempty
    have hnil : s.tokens = [] := List.isEmpty_iff.mp hempty
    split at hstep
    · cases hstep
      have htokens : (s.push .leading).tokens = [.leading] := by
        rw [Scanner.push, hnil]
        rfl
      exact ⟨.single (.lead hnil rfl htokens), recalls_of_concat rfl nofun⟩
    · exact htwo hstep
  rename_i hempty
  have hne : s.tokens ≠ [] := fun hnil => hempty (List.isEmpty_iff.mpr hnil)
  split at hstep
  · exact htwo hstep
  rename_i hbegin
  have hslash := slash_of_mayBeginComponent h hmode (by simpa using hbegin)
  split at hstep
  · cases hstep
    exact ⟨.single (.cross .between (Or.inl rfl) hne hslash rfl rfl),
      recalls_crossing (Or.inl rfl) rfl⟩
  split at hstep
  · have hcross : Edit s (s.crossing .trailing) :=
      .cross .trailing (Or.inr rfl) hne hslash rfl rfl
    exact edits_plainStep (.single hcross) (recalls_crossing (Or.inr rfl) rfl) rfl hstep
  · exact htwo hstep

theorem edit_classStep {text : ClassText} (hstep : s.classStep text c = .ok s') :
    Edit s s' ∧ s'.Recalls := by
  unfold classStep at hstep
  dsimp only at hstep
  split at hstep
  · cases hstep
    exact ⟨.push text.token nofun rfl rfl, recalls_of_concat rfl nofun⟩
  split at hstep
  · cases hstep
    exact ⟨.stay rfl rfl, fun _ _ _ => trivial⟩
  split at hstep
  · cases hrange : text.closeRange c with
    | error fault => rw [hrange] at hstep; cases hstep
    | ok text' =>
      rw [hrange] at hstep
      cases hstep
      exact ⟨.stay rfl rfl, fun _ _ _ => trivial⟩
  · cases hstep
    exact ⟨.stay rfl rfl, fun _ _ _ => trivial⟩

/-- **A character makes only edits.** -/
theorem edits_step (h : s.Recalls) (hstep : s.step c = .ok s') : Edits s s' ∧ s'.Recalls := by
  unfold step at hstep
  split at hstep
  · rename_i hmode
    exact edits_plainStep .refl h hmode hstep
  · rename_i hmode
    split at hstep
    · cases hstep
      refine ⟨.single (.stay rfl rfl), fun hgroups c hlast => ?_⟩
      have hrecalled := h hgroups c hlast
      rw [hmode] at hrecalled
      exact hrecalled
    · let s₁ : Scanner := { s.push .star with last := some '*', mode := .plain }
      have hpush : Edit s s₁ := .push .star nofun rfl rfl
      have hrecalls : s₁.Recalls := recalls_of_concat rfl nofun
      exact edits_plainStep (.single hpush) hrecalls rfl hstep
  · rename_i hmode
    exact edits_starsStep h hmode hstep
  · cases hstep
    refine ⟨.single (.push (.literal c) nofun rfl rfl), fun _ c hlast => ?_⟩
    simp only [Scanner.push, List.getLast?_concat, Option.some.injEq, Token.literal.injEq] at hlast
    rw [← hlast]
  · split at hstep
    · cases hstep
      exact ⟨.single (.stay rfl rfl), fun _ _ _ => trivial⟩
    · obtain ⟨hedit, hrecalls⟩ := edit_classStep hstep
      exact ⟨.single hedit, hrecalls⟩
  · obtain ⟨hedit, hrecalls⟩ := edit_classStep hstep
    exact ⟨.single hedit, hrecalls⟩

/-! ## Texts -/

theorem run_append (s : Scanner) (text more : List Char) :
    s.run (text ++ more) = s.run text >>= fun s => s.run more := by
  induction text generalizing s with
  | nil => rfl
  | cons c text ih =>
    rw [List.cons_append, run, run, bind_assoc]
    exact congrArg _ (funext fun s => ih s)

theorem exists_step_of_run {text : List Char} (h : s.run (c :: text) = .ok s') :
    ∃ s₁, s.step c = .ok s₁ ∧ s₁.run text = .ok s' := by
  rw [run] at h
  cases hstep : s.step c with
  | error fault => rw [hstep] at h; cases h
  | ok s₁ =>
    rw [hstep] at h
    exact ⟨s₁, rfl, h⟩

/-- **A text makes only edits**: one character after another. -/
theorem edits_run {text : List Char} (h : s.Recalls) (hrun : s.run text = .ok s') :
    Edits s s' ∧ s'.Recalls := by
  induction text generalizing s with
  | nil =>
    cases hrun
    exact ⟨.refl, h⟩
  | cons c text ih =>
    obtain ⟨s₁, hstep, hrest⟩ := exists_step_of_run hrun
    obtain ⟨hfirst, hrecalls⟩ := edits_step h hstep
    obtain ⟨hedits, hlast⟩ := ih hrecalls hrest
    exact ⟨hfirst.trans hedits, hlast⟩

theorem close_eq_ok_iff {glob : Glob} :
    s.close = .ok glob ↔ s.groups = [] ∧ s.tokens = glob := by
  unfold close
  cases hgroups : s.groups with
  | nil => simp
  | cons g groups => simp

theorem edits_starsEnd {previous : Option Char} (h : s.Recalls)
    (hmode : s.mode = .stars previous) : Edits s (s.starsEnd previous) := by
  unfold starsEnd
  split
  · rename_i hempty
    have hnil : s.tokens = [] := List.isEmpty_iff.mp hempty
    have htokens : (s.push .leading).tokens = [.leading] := by
      rw [Scanner.push, hnil]
      rfl
    exact .single (.lead hnil rfl htokens)
  rename_i hempty
  have hne : s.tokens ≠ [] := fun hnil => hempty (List.isEmpty_iff.mpr hnil)
  split
  · rename_i hbegin
    exact .single (.cross .trailing (Or.inr rfl) hne (slash_of_mayBeginComponent h hmode hbegin)
      rfl rfl)
  · exact edits_twoStars s

/-- The end of a text makes only edits, and leaves the tokens of the glob. -/
theorem edits_finish {glob : Glob} (h : s.Recalls) (hfinish : s.finish = .ok glob) :
    ∃ s', Edits s s' ∧ s'.groups = [] ∧ s'.tokens = glob := by
  unfold finish at hfinish
  split at hfinish
  · obtain ⟨hgroups, htokens⟩ := close_eq_ok_iff.mp hfinish
    exact ⟨s, .refl, hgroups, htokens⟩
  · obtain ⟨hgroups, htokens⟩ := close_eq_ok_iff.mp hfinish
    exact ⟨s.push .star, .single (.push .star nofun rfl rfl), hgroups, htokens⟩
  · rename_i previous hmode
    obtain ⟨hgroups, htokens⟩ := close_eq_ok_iff.mp hfinish
    exact ⟨s.starsEnd previous, edits_starsEnd h hmode, hgroups, htokens⟩
  · cases hfinish
  · cases hfinish
  · cases hfinish

end PathLabels.Glob.Scanner
