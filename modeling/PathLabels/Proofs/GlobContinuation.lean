import PathLabels.Proofs.GlobScanning

/-!
# Reading on behind a glob

The text of a glob is read with `/**` behind it once more. How the two readings differ depends on what
the scanner is in the middle of where the glob ends: a star there may turn out to be the first of two,
and two stars a component of their own that takes in the next slash. There are three outcomes,
`Continues`, and the theorem at the end says that there are no others.
-/

namespace PathLabels

namespace Glob

/-! ## Components that lead a branch

`**/` is read as a token of its own kind only at the beginning of a branch. So if it is the last token
of a branch, that branch is nothing else, and the scanner keeps it that way.
-/

/-- If the last token is a leading `**/`, it is the only one. -/
def LeadsAlone (ts : List Token) : Prop := ∀ init, ts = init ++ [.leading] → init = []

theorem leadsAlone_nil : LeadsAlone [] := by
  intro init h
  exact (List.append_eq_nil_iff.mp h.symm).1

theorem leadsAlone_concat (ts : List Token) {t : Token} (ht : t ≠ .leading) :
    LeadsAlone (ts ++ [t]) := by
  intro init h
  obtain ⟨_, hlast⟩ := List.append_inj' h rfl
  exact absurd (List.cons.inj hlast).1 ht

theorem leadsAlone_leading : LeadsAlone [.leading] := by
  intro init h
  have hone : [Token.leading].length = (init ++ [Token.leading]).length := congrArg List.length h
  rw [List.length_append] at hone
  exact List.eq_nil_of_length_eq_zero (Nat.succ.inj hone).symm

namespace Scanner

variable {s s' : Scanner}

theorem leadsAlone_crossing {t : Token} (h : LeadsAlone s.tokens) (ht : t ≠ .leading) :
    LeadsAlone (s.crossing t).tokens := by
  unfold crossing
  dsimp only
  split
  · rename_i hlast
    obtain ⟨init, hsplit⟩ := List.getLast?_eq_some_iff.mp hlast
    rw [hsplit, List.dropLast_concat, h init hsplit]
    exact leadsAlone_leading
  · exact leadsAlone_concat _ nofun
  · exact leadsAlone_concat _ ht

/-- **An edit keeps a leading component alone.** -/
theorem Edit.leadsAlone (h : Edit s s') (hlead : LeadsAlone s.tokens) : LeadsAlone s'.tokens := by
  cases h with
  | stay _ htokens => exact htokens ▸ hlead
  | push t ht _ htokens => exact htokens ▸ leadsAlone_concat _ ht
  | lead _ _ htokens => exact htokens ▸ leadsAlone_leading
  | cross t ht _ _ _ htokens =>
    have hne : t ≠ .leading := by rcases ht with rfl | rfl <;> nofun
    exact htokens ▸ leadsAlone_crossing hlead hne
  | openGroup _ htokens => exact htokens ▸ leadsAlone_nil
  | comma _ _ htokens => exact htokens ▸ leadsAlone_nil
  | closeGroup _ _ htokens => exact htokens ▸ leadsAlone_concat _ nofun

theorem Edits.leadsAlone (h : Edits s s') (hlead : LeadsAlone s.tokens) : LeadsAlone s'.tokens := by
  induction h with
  | refl => exact hlead
  | tail _ hedit ih => exact hedit.leadsAlone ih

theorem leadsAlone_run {text : List Char} (hrun : run {} text = .ok s) : LeadsAlone s.tokens :=
  (edits_run (recalls_of_nil rfl) hrun).1.leadsAlone leadsAlone_nil

end Scanner

/-! ## What is written behind a glob -/

/-- What a glob becomes when `/**` is written behind its text. -/
inductive Continues : Glob → Glob → Prop where
  /-- It is `**`, and stays so. -/
  | everything : Continues [.leading] [.leading]
  /-- It ends in `/**` already. -/
  | already (ts : Glob) : Continues (ts ++ [.trailing]) (ts ++ [.trailing])
  /-- It goes on with the new end. -/
  | further (ts : Glob) : Continues ts (ts ++ [.trailing])

namespace Scanner

variable {s : Scanner} {exact : Glob}

/-- A component of two stars stays what it is. -/
theorem tokens_crossing_of_crosses {ts : List Token} {u : Token} (h : s.tokens = ts ++ [u])
    (hu : u = .leading ∨ u = .trailing) (t : Token) : (s.crossing t).tokens = ts ++ [u] := by
  unfold crossing
  rw [h, List.getLast?_concat, List.dropLast_concat]
  rcases hu with rfl | rfl
  · rfl
  · rfl

/-- Any other token gives way. -/
theorem tokens_crossing {ts : List Token} {u : Token} (h : s.tokens = ts ++ [u])
    (hu : ¬(u = .leading ∨ u = .trailing)) (t : Token) : (s.crossing t).tokens = ts ++ [t] := by
  unfold crossing
  rw [h, List.getLast?_concat, List.dropLast_concat]
  dsimp only
  split
  · rename_i hlast
    exact absurd (Or.inl (Option.some.inj hlast)) hu
  · rename_i hlast
    exact absurd (Or.inr (Option.some.inj hlast)) hu
  · rfl

/-- Two stars after a slash, at the end of the text. -/
theorem finish_run_stars (hgroups : s.groups = []) (hmode : s.mode = .plain)
    (hlast : s.last = some '/') (hne : s.tokens ≠ []) :
    (s.run ['*', '*'] >>= finish) = .ok (s.crossing .trailing).tokens := by
  obtain ⟨groups, tokens, last, mode⟩ := s
  cases hgroups
  cases hmode
  cases hlast
  -- the character before the two stars is the slash, so they begin a component
  have hsome : tokens.isEmpty = false := List.isEmpty_eq_false_iff.mpr hne
  have hbegin (s : Scanner) : s.mayBeginComponent (some '/') = true := rfl
  show (starsEnd _ (some '/')).close = _
  unfold starsEnd
  rw [hsome, hbegin]
  exact close_eq_ok_iff.mpr ⟨rfl, rfl⟩

/-- A slash that stands for itself is taken in by the stars behind it. -/
theorem finish_plainStep_slash (hgroups : s.groups = []) :
    (s.plainStep '/' >>= fun s => s.run ['*', '*'] >>= finish)
      = .ok (s.tokens ++ [.trailing]) := by
  let s₁ : Scanner := { s.push (.literal '/') with last := some '/', mode := .plain }
  have hstep : s.plainStep '/' = .ok s₁ := rfl
  have hne : s₁.tokens ≠ [] := List.concat_ne_nil _ _
  have htokens : s₁.tokens = s.tokens ++ [.literal '/'] := rfl
  rw [hstep, ← tokens_crossing htokens (by rintro (h | h) <;> cases h) .trailing]
  exact finish_run_stars (s := s₁) hgroups rfl rfl hne

/-- `/**/**` is `/**`. -/
theorem continues_crossing {s' : Scanner} (hlead : LeadsAlone s.tokens) (hne : s.tokens ≠ [])
    (hs' : s'.tokens = (s.crossing .between).tokens) :
    Continues (s.crossing .trailing).tokens (s'.crossing .trailing).tokens := by
  obtain ⟨ts, u, hsplit⟩ := (List.eq_nil_or_concat s.tokens).resolve_left hne
  rw [List.concat_eq_append] at hsplit
  by_cases hu : u = .leading ∨ u = .trailing
  · rw [tokens_crossing_of_crosses hsplit hu] at hs'
    rw [tokens_crossing_of_crosses hsplit hu, tokens_crossing_of_crosses hs' hu]
    rcases hu with rfl | rfl
    · -- nothing stands before a leading component
      rw [hlead ts hsplit]
      exact .everything
    · exact .already ts
  · rw [tokens_crossing hsplit hu] at hs'
    rw [tokens_crossing hsplit hu, tokens_crossing hs' (by rintro (h | h) <;> cases h)]
    exact .already ts

/-- What is read behind two stars, by the three ways in which they end a text. -/
theorem exists_continuation_stars {previous : Option Char} (hlead : LeadsAlone s.tokens)
    (hend : (s.starsEnd previous).close = .ok exact) :
    ∃ below, (s.starsStep previous '/' >>= fun s => s.run ['*', '*'] >>= finish) = .ok below
      ∧ Continues exact below := by
  unfold starsEnd at hend
  unfold starsStep
  by_cases hempty : s.tokens = []
  · have hnone : s.tokens.isEmpty = true := List.isEmpty_iff.mpr hempty
    rw [if_pos hnone] at hend ⊢
    obtain ⟨hgroups, rfl⟩ := close_eq_ok_iff.mp hend
    -- the slash makes `**/` of it, and that takes in the stars behind it
    let s₁ : Scanner := { s.push .leading with last := some '/', mode := .plain }
    have htokens : s₁.tokens = [] ++ [.leading] := congrArg (· ++ [Token.leading]) hempty
    have hne : s₁.tokens ≠ [] := List.concat_ne_nil _ _
    have hexact : (s.push .leading).tokens = [.leading] := htokens
    have hread := finish_run_stars (s := s₁) hgroups rfl rfl hne
    rw [tokens_crossing_of_crosses htokens (Or.inl rfl)] at hread
    exact ⟨[.leading], hread, hexact ▸ .everything⟩
  have hsome : ¬s.tokens.isEmpty = true := fun h => hempty (List.isEmpty_iff.mp h)
  rw [if_neg hsome] at hend ⊢
  by_cases hbegin : s.mayBeginComponent previous = true
  · rw [if_pos hbegin] at hend
    rw [if_neg (by simpa using hbegin), if_pos rfl]
    obtain ⟨hgroups, rfl⟩ := close_eq_ok_iff.mp hend
    let s₁ : Scanner := { s.crossing .between with last := some '/' }
    have hne : s₁.tokens ≠ [] := List.concat_ne_nil _ _
    have hread := finish_run_stars (s := s₁) hgroups rfl rfl hne
    exact ⟨_, hread, continues_crossing hlead hempty rfl⟩
  · rw [if_neg hbegin] at hend
    rw [if_pos (by simpa using hbegin)]
    obtain ⟨hgroups, rfl⟩ := close_eq_ok_iff.mp hend
    exact ⟨_, finish_plainStep_slash hgroups, .further _⟩

/-- A text that ends here as a glob may as well go on with `/**`, whatever the scanner is in the middle
of. -/
theorem exists_continuation (hlead : LeadsAlone s.tokens) (hfinish : s.finish = .ok exact) :
    ∃ below, (s.run ['/', '*', '*'] >>= finish) = .ok below ∧ Continues exact below := by
  have hrun : (s.run ['/', '*', '*'] >>= finish)
      = (s.step '/' >>= fun s => s.run ['*', '*'] >>= finish) := by
    rw [run, bind_assoc]
  rw [hrun]
  unfold finish at hfinish
  unfold step
  cases hmode : s.mode with
  | plain =>
    rw [hmode] at hfinish
    obtain ⟨hgroups, rfl⟩ := close_eq_ok_iff.mp hfinish
    exact ⟨_, finish_plainStep_slash hgroups, .further _⟩
  | star =>
    rw [hmode] at hfinish
    obtain ⟨hgroups, rfl⟩ := close_eq_ok_iff.mp hfinish
    exact ⟨_, finish_plainStep_slash hgroups, .further _⟩
  | stars previous =>
    rw [hmode] at hfinish
    exact exists_continuation_stars hlead hfinish
  | escape => rw [hmode] at hfinish; cases hfinish
  | classStart => rw [hmode] at hfinish; cases hfinish
  | inClass text => rw [hmode] at hfinish; cases hfinish

end Scanner

/-- **The text of a glob may be followed by `/**`**, and what it is read as goes on with that. -/
theorem exists_continuation {base : List Char} {exact : Glob} (h : ofChars? base = .ok exact) :
    ∃ below, ofChars? (base ++ ['/', '*', '*']) = .ok below ∧ Continues exact below := by
  unfold ofChars? at h ⊢
  rw [Scanner.run_append, bind_assoc]
  cases hrun : Scanner.run {} base with
  | error fault => rw [hrun] at h; cases h
  | ok s =>
    rw [hrun] at h
    exact Scanner.exists_continuation (Scanner.leadsAlone_run hrun) h

end Glob

end PathLabels
