import PathLabels.Cli.Command
import PathLabels.Proofs.Compiling

/-!
# Words after `--`

A command line may be given more words after the fact: with `--` and some words at its end it means
what it meant before, and the words are new. Reading goes from left to right and looks at most one
argument ahead, for the value of an option; so what stands at the end changes nothing about what
stands before it, unless that had a `--` of its own.
-/

namespace PathLabels.Cli

/-- What has been read, with further words. -/
def Given.addWords (given : Given) (words : List String) : Given :=
  { given with words := given.words ++ words }

@[simp] theorem Given.has_addWords (given : Given) (words : List String) (name : String) :
    (given.addWords words).has name = given.has name := rfl

variable {specs : List OptionSpec} {rule : WordRule} {given given' : Given} {body : List Char}
  {arg : String} {args rest rest' : List String}

/-! ## One argument -/

theorem readLong_append (h : readLong specs given body rest = .ok (given', rest'))
    (extra : List String) :
    readLong specs given body (rest ++ extra) = .ok (given', rest' ++ extra) ∧ rest' <:+ rest := by
  have key {x : Except Stop Given} {r : List String}
      (h : (x.map fun given => (given, r)) = .ok (given', rest')) :
      (x.map fun given => (given, r ++ extra)) = .ok (given', rest' ++ extra) ∧ rest' = r := by
    cases x with
    | error e => cases h
    | ok g => cases h; exact ⟨rfl, rfl⟩
  unfold readLong at h ⊢
  dsimp only at h ⊢
  generalize body.dropWhile (· != '=') = attached at h ⊢
  cases hspec : specs.find? fun spec =>
      spec.name == String.ofList (body.takeWhile (· != '=')) with
  | none => rw [hspec] at h; cases h
  | some spec =>
    rw [hspec] at h
    dsimp only at h ⊢
    cases hkind : spec.kind with
    | flag =>
      rw [hkind] at h
      dsimp only at h ⊢
      split at h
      · rename_i hattached
        obtain ⟨hread, rfl⟩ := key h
        rw [if_pos hattached]
        exact ⟨hread, List.suffix_rfl⟩
      · cases h
    | stop reason =>
      rw [hkind] at h
      dsimp only at h
      split at h <;> cases h
    | value isValid =>
      rw [hkind] at h
      -- the value is attached, or it is the next argument, which then counts as read
      cases attached with
      | cons c value =>
        obtain ⟨hread, rfl⟩ := key h
        exact ⟨hread, List.suffix_rfl⟩
      | nil =>
        cases rest with
        | nil => cases h
        | cons value rest =>
          dsimp only [List.cons_append] at h ⊢
          split at h
          · cases h
          · rename_i hvalue
            obtain ⟨hread, rfl⟩ := key h
            rw [if_neg hvalue]
            exact ⟨hread, List.suffix_cons value rest'⟩

theorem readArguments_long (harg : arg.toList = '-' :: '-' :: body) (hbody : body ≠ [])
    (h : readLong specs given body rest = .ok (given', rest')) :
    readArguments specs rule given (arg :: rest) = readArguments specs rule given' rest' := by
  rw [readArguments.eq_def]
  simp only [harg]
  cases body with
  | nil => exact absurd rfl hbody
  | cons c cs =>
    split
    · rename_i e he
      rw [h] at he
      cases he
    · rename_i g r hread
      rw [h] at hread
      cases hread
      rfl

theorem readArguments_short {c : Char} {cs : List Char} (harg : arg.toList = '-' :: c :: cs)
    (hc : c ≠ '-') (h : readShort specs given (c :: cs) = .ok given') :
    readArguments specs rule given (arg :: rest) = readArguments specs rule given' rest := by
  rw [readArguments.eq_def]
  simp only [harg]
  simp [hc, h]

/-- An argument that is no option. -/
def IsWord (arg : String) : Prop := ∀ c cs, arg.toList ≠ '-' :: c :: cs

theorem readArguments_word (harg : IsWord arg) :
    readArguments specs rule given (arg :: rest)
      = match rule with
        | .none => .error (unexpected arg)
        | .many => readArguments specs .many (given.addWords [arg]) rest
        | .command => .ok (given, arg :: rest) := by
  cases rule
  all_goals
    rw [readArguments]
    split
    · rename_i h; exact absurd h (harg _ _)
    · rename_i h; exact absurd h (harg _ _)
    · rename_i h; exact absurd h (harg _ _)
    · rfl

/-! ## All arguments -/

/-- **Reading goes on where it stopped**, unless it came to a `--`. -/
theorem readArguments_append (h : readArguments specs rule given args = .ok (given', rest))
    (hdash : "--" ∉ args) (extra : List String) :
    readArguments specs rule given (args ++ extra)
      = readArguments specs rule given' (rest ++ extra) ∧ rest <:+ args := by
  -- what is left after an option is a suffix, so no `--` comes up in it either
  fun_induction readArguments specs rule given args with
  | case1 given => cases h; exact ⟨rfl, List.suffix_rfl⟩
  | case2 given arg args harg =>
    have hself : arg = "--" := String.toList_inj.mp harg
    exact absurd (hself ▸ List.mem_cons_self) hdash
  | case3 => cases h
  | case4 given arg args body hbody harg given₁ args₁ hlong _ ih =>
    obtain ⟨hlong', hsuffix⟩ := readLong_append hlong extra
    obtain ⟨hread, hsuffix'⟩ := ih h fun hmem =>
      hdash (List.mem_cons_of_mem arg (hsuffix.subset hmem))
    exact ⟨(readArguments_long harg hbody hlong').trans hread,
      (hsuffix'.trans hsuffix).trans (List.suffix_cons arg args)⟩
  | case5 => cases h
  | case6 given arg args c cs hdouble hc harg given₁ hshort ih =>
    obtain ⟨hread, hsuffix⟩ := ih h fun hmem => hdash (List.mem_cons_of_mem arg hmem)
    exact ⟨(readArguments_short harg hc hshort).trans hread,
      hsuffix.trans (List.suffix_cons arg args)⟩
  | case7 => cases h
  | case8 given arg args hrule _ _ hword ih =>
    subst hrule
    obtain ⟨hread, hsuffix⟩ := ih h fun hmem => hdash (List.mem_cons_of_mem arg hmem)
    exact ⟨(readArguments_word hword).trans hread, hsuffix.trans (List.suffix_cons arg args)⟩
  | case9 => cases h; exact ⟨rfl, List.suffix_rfl⟩

/-- Only a command is left over. -/
theorem eq_nil_or_of_readArguments (h : readArguments specs rule given args = .ok (given', rest)) :
    rest = [] ∨ rule = .command ∧ ∃ arg args', rest = arg :: args' ∧ IsWord arg := by
  fun_induction readArguments specs rule given args with
  | case1 => cases h; exact Or.inl rfl
  | case2 given arg args =>
    cases hwords : readWords rule given args with
    | error e => rw [hwords] at h; cases h
    | ok g => rw [hwords] at h; cases h; exact Or.inl rfl
  | case3 => cases h
  | case4 _ _ _ _ _ _ _ _ _ _ ih => exact ih h
  | case5 => cases h
  | case6 _ _ _ _ _ _ _ _ _ _ ih => exact ih h
  | case7 => cases h
  | case8 given arg args hrule _ _ _ ih => subst hrule; exact ih h
  | case9 given arg args hrule _ _ hword =>
    cases h
    exact Or.inr ⟨hrule, arg, args, rfl, hword⟩

theorem readArguments_dash (words : List String) :
    readArguments specs .many given ("--" :: words) = .ok (given.addWords words, []) := by
  rw [readArguments]
  rfl

/-! ## What becomes of what has been read -/

theorem noteValue_addWords (spec : OptionSpec) (isValid : String → Bool) (value : String)
    (words : List String) :
    noteValue (given.addWords words) spec isValid value
      = (noteValue given spec isValid value).map (·.addWords words) := by
  unfold noteValue Given.note
  rw [Given.has_addWords]
  split
  · split <;> rfl
  · rfl

/-- The environment is asked for options, not for words. -/
theorem fromEnvironment_addWords {environment : String → Option String}
    (h : fromEnvironment environment specs given = .ok given') (words : List String) :
    fromEnvironment environment specs (given.addWords words) = .ok (given'.addWords words) := by
  unfold fromEnvironment at h ⊢
  induction specs generalizing given with
  | nil => cases h; rfl
  | cons spec specs ih =>
    rw [List.foldlM_cons] at h ⊢
    obtain ⟨given₁, hfirst, hrest⟩ := bind_eq_ok_iff.mp h
    refine bind_eq_ok_iff.mpr ⟨given₁.addWords words, ?_, ih hrest⟩
    split at hfirst
    · split at hfirst
      · cases hfirst
        simp_all
      · rename_i hhas
        rw [Given.has_addWords, if_neg hhas, noteValue_addWords, hfirst]
        rfl
    · cases hfirst
      simp_all

/-- How a command line that describes a command is read. -/
inductive Reads (environment : String → Option String) (args : List String) :
    Invocation → Prop where
  | intro {outer given given' : Given} {name : String} {rest left : List String} {c : CommandSpec}
      {command : Command} :
      readArguments (commonOptions ++ [versionOption]) .command {} args
        = .ok (outer, name :: rest) →
      name ≠ "help" → commands.find? (fun c => c.name == name) = some c →
      readArguments (c.options ++ commonOptions) c.words {} rest = .ok (given, left) →
      fromEnvironment environment c.options given = .ok given' →
      c.build given' = .ok command →
      Reads environment args {
        logFormat := (((given'.value? "log-format").or (outer.value? "log-format")).bind
          LogFormat.ofName?).getD .text
        command }

theorem parse_eq_ok_iff {environment : String → Option String} {invocation : Invocation} :
    Invocation.parse environment args = .ok invocation ↔ Reads environment args invocation := by
  unfold Invocation.parse
  constructor
  · intro h
    obtain ⟨⟨outer, rest⟩, houter, h⟩ := bind_eq_ok_iff.mp h
    cases rest with
    | nil => cases h
    | cons name rest =>
      dsimp only at h
      split at h
      · cases h
      rename_i hhelp
      split at h
      · cases h
      rename_i c hc
      obtain ⟨⟨given, left⟩, hgiven, h⟩ := bind_eq_ok_iff.mp h
      obtain ⟨given', henvironment, h⟩ := bind_eq_ok_iff.mp h
      obtain ⟨command, hbuild, h⟩ := bind_eq_ok_iff.mp h
      cases h
      exact .intro houter (by simpa using hhelp) hc hgiven henvironment hbuild
  · rintro ⟨houter, hhelp, hc, hgiven, henvironment, hbuild⟩
    refine bind_eq_ok_iff.mpr ⟨_, houter, ?_⟩
    dsimp only
    rw [if_neg (by simpa using hhelp), hc]
    dsimp only
    refine bind_eq_ok_iff.mpr ⟨_, hgiven, ?_⟩
    refine bind_eq_ok_iff.mpr ⟨_, henvironment, ?_⟩
    exact bind_eq_ok_iff.mpr ⟨_, hbuild, rfl⟩

theorem build_addWords {c : CommandSpec} (hc : c ∈ commands) {rulesPath : String} {json : Bool}
    {paths : List String} (h : c.build given = .ok (.decide rulesPath json paths)) :
    c.words = .many ∧ ∀ words,
      c.build (given.addWords words) = .ok (.decide rulesPath json (paths ++ words)) := by
  simp only [commands, List.mem_cons, List.not_mem_nil, or_false] at hc
  rcases hc with rfl | rfl | rfl
  · dsimp only at h
    unfold labelCommand at h
    split at h <;> cases h
  · cases h
    exact ⟨rfl, fun _ => rfl⟩
  · cases h

/-- **Words that are added after `--` are paths whose labels are decided.** -/
theorem parse_append_words {environment : String → Option String} {format : LogFormat}
    {rulesPath : String} {json : Bool} {paths : List String}
    (h : Invocation.parse environment args = .ok ⟨format, .decide rulesPath json paths⟩)
    (hdash : "--" ∉ args) (words : List String) :
    Invocation.parse environment (args ++ "--" :: words)
      = .ok ⟨format, .decide rulesPath json (paths ++ words)⟩ := by
  rw [parse_eq_ok_iff] at h ⊢
  cases h with
  | @intro outer given given' name rest left c _ houter hhelp hc hgiven henvironment hbuild =>
    obtain ⟨hmany, hbuild'⟩ := build_addWords (List.mem_of_find?_eq_some hc) hbuild
    obtain ⟨houter', hsuffix⟩ := readArguments_append houter hdash ("--" :: words)
    have hrest : "--" ∉ rest := fun hmem =>
      hdash (hsuffix.subset (List.mem_cons_of_mem name hmem))
    obtain ⟨hgiven', -⟩ := readArguments_append hgiven hrest ("--" :: words)
    -- the command is left over from the first reading, and nothing from the second
    rcases eq_nil_or_of_readArguments houter with hnil | ⟨-, _, _, heq, hword⟩
    · cases hnil
    cases heq
    rw [List.cons_append, readArguments_word hword] at houter'
    rcases eq_nil_or_of_readArguments hgiven with rfl | ⟨hcommand, -⟩
    · rw [hmany, List.nil_append, readArguments_dash, ← hmany] at hgiven'
      have hreads := Reads.intro houter' hhelp hc hgiven'
        (fromEnvironment_addWords henvironment words) (hbuild' words)
      exact hreads
    · rw [hmany] at hcommand
      cases hcommand

end PathLabels.Cli
