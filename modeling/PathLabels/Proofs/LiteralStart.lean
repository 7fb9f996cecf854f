import PathLabels.Proofs.GlobScanning
import PathLabels.Proofs.Spelling
import PathLabels.Proofs.Utf8

/-!
# What stands before the first wildcard

The specificity of a glob is measured on its text: it is what stands before the first wildcard. The
paths that the glob matches begin with what the scanner reads there, and that is the same but for the
backslashes, which keep the next character and stand for nothing themselves.

After the start there is little that could take a character of it away again. Two stars take in the
slash before them, and that may be the last character of the start; but what they match begins with a
slash as well. `Begins` says of the tokens of a glob that they have the start or have it in this form,
and no edit of the scanner changes that.
-/

namespace PathLabels

namespace Glob

/-- A text as it is read without the backslashes, each of which keeps the next character. One at the
end keeps what comes after the text. -/
def withoutEscapes : List Char → List Char
  | [] => []
  | ['\\'] => []
  | '\\' :: c :: text => c :: withoutEscapes text
  | c :: text => c :: withoutEscapes text

theorem withoutEscapes_cons {c : Char} (hc : c ≠ '\\') (text : List Char) :
    withoutEscapes (c :: text) = c :: withoutEscapes text := by
  rw [withoutEscapes]
  · exact fun heq _ => hc heq
  · exact fun _ _ heq _ => hc heq

theorem withoutEscapes_eq_self {text : List Char} (h : '\\' ∉ text) : withoutEscapes text = text := by
  induction text with
  | nil => rfl
  | cons c text ih =>
    rw [List.mem_cons, not_or] at h
    rw [withoutEscapes_cons (Ne.symm h.1), ih h.2]

/-- Only backslashes are missing. -/
theorem count_slash_withoutEscapes (text : List Char) :
    (withoutEscapes text).count '/' = text.count '/' := by
  induction text using withoutEscapes.induct with
  | case1 => rfl
  | case2 => rfl
  | case3 c text ih =>
    have hskip : ('\\' :: c :: text).count '/' = (c :: text).count '/' :=
      List.count_cons_of_ne (by decide)
    rw [withoutEscapes, hskip, List.count_cons, List.count_cons, ih]
  | case4 c text hlone hescape ih =>
    rw [withoutEscapes, List.count_cons, List.count_cons, ih]
    · exact hlone
    · exact hescape

/-! ## Tokens that begin with a text -/

/-- Tokens that begin with the characters of a text, or with all but the slash at its end and a
component of two stars that has taken it in. -/
inductive Begins (start : List Char) : List Token → Prop where
  | kept (more : List Token) : Begins start (start.map .literal ++ more)
  | crossed {init : List Char} (hstart : start = init ++ ['/']) {t : Token}
      (ht : t = .between ∨ t = .trailing) (more : List Token) :
      Begins start (init.map .literal ++ t :: more)

namespace Begins

variable {start : List Char} {ts : List Token} {w : List UInt8}

theorem append (h : Begins start ts) (more : List Token) : Begins start (ts ++ more) := by
  cases h with
  | kept us =>
    rw [List.append_assoc]
    exact .kept _
  | crossed hstart ht us =>
    rw [List.append_assoc, List.cons_append]
    exact .crossed hstart ht _

theorem literals (start : List Char) : Begins start (start.map .literal) := by
  rw [← List.append_nil (start.map Token.literal)]
  exact .kept []

/-- Nothing stands before a `**/` at the beginning. -/
theorem eq_nil_of_leading (h : Begins start ts) (hts : ts = [.leading]) : start = [] := by
  cases h with
  | kept us =>
    cases start with
    | nil => rfl
    | cons c start => cases hts
  | @crossed init _ t ht us =>
    cases init with
    | nil => rcases ht with rfl | rfl <;> cases hts
    | cons c init => cases hts

/-- Without the last token they still begin with the text, unless that was the character at its end or
a component in the place of its slash. -/
theorem of_concat {u : Token} (h : Begins start (ts ++ [u])) :
    Begins start ts ∨ ∃ init c, start = init ++ [c] ∧ ts = init.map .literal
      ∧ (u = .literal c ∨ c = '/') := by
  generalize hsplit : ts ++ [u] = us at h
  cases h with
  | kept more =>
    obtain rfl | ⟨more, v, rfl⟩ := List.eq_nil_or_concat' more
    · rw [List.append_nil] at hsplit
      obtain ⟨init, last, rfl, rfl, hlast⟩ := List.map_eq_append_iff.mp hsplit.symm
      obtain ⟨c, rfl, rfl⟩ := List.map_eq_singleton_iff.mp hlast
      exact Or.inr ⟨init, c, rfl, rfl, Or.inl rfl⟩
    · rw [← List.append_assoc] at hsplit
      obtain ⟨rfl, -⟩ := List.append_inj' hsplit rfl
      exact Or.inl (.kept more)
  | @crossed init hstart t ht more =>
    obtain rfl | ⟨more, v, rfl⟩ := List.eq_nil_or_concat' more
    · obtain ⟨rfl, -⟩ := List.append_inj' hsplit rfl
      exact Or.inr ⟨init, '/', hstart, rfl, Or.inr rfl⟩
    · rw [← List.cons_append, ← List.append_assoc] at hsplit
      obtain ⟨rfl, -⟩ := List.append_inj' hsplit rfl
      exact Or.inl (.crossed hstart ht more)

/-- A component of two stars may take in the last token, if that is no character but a slash. -/
theorem crossing {s : Scanner} (h : Begins start s.tokens) {t : Token}
    (ht : t = .between ∨ t = .trailing) (hne : s.tokens ≠ [])
    (hslash : ∀ c, s.tokens.getLast? = some (.literal c) → c = '/') :
    Begins start (s.crossing t).tokens := by
  obtain ⟨us, u, hsplit⟩ := (List.eq_nil_or_concat' s.tokens).resolve_left hne
  by_cases hu : u = .leading ∨ u = .trailing
  · rw [Scanner.tokens_crossing_of_crosses hsplit hu, ← hsplit]
    exact h
  rw [Scanner.tokens_crossing hsplit hu]
  rw [hsplit] at h hslash
  obtain hbegins | ⟨init, c, hstart, rfl, hc⟩ := h.of_concat
  · exact hbegins.append [t]
  · have hc : c = '/' := hc.elim (fun h => hslash c (by rw [List.getLast?_concat, h])) id
    exact .crossed (hc ▸ hstart) ht []

/-! ### What they match -/

theorem prefix_of_mem_literals {more : List Token}
    (h : w ∈ sequenceLanguage (start.map .literal ++ more)) :
    ∃ rest ∈ sequenceLanguage more, w = Text.bytesOf start ++ rest := by
  induction start generalizing w with
  | nil => exact ⟨w, h, rfl⟩
  | cons c start ih =>
    obtain ⟨_, rfl, later, hlater, rfl⟩ := h
    obtain ⟨rest, hrest, rfl⟩ := ih hlater
    exact ⟨rest, hrest, by simp [Text.bytesOf]⟩

theorem slash_of_mem_crossing {t : Token} {more : List Token} (ht : t = .between ∨ t = .trailing)
    (h : w ∈ sequenceLanguage (t :: more)) : ∃ rest, w = slash :: rest := by
  rcases ht with rfl | rfl
  · obtain ⟨_, ⟨_, rfl, crossed, _, rfl⟩, rest, _, rfl⟩ := h
    exact ⟨crossed ++ rest, rfl⟩
  · obtain ⟨_, ⟨_, rfl, crossed, _, rfl⟩, rest, _, rfl⟩ := h
    exact ⟨crossed ++ rest, rfl⟩

/-- **Tokens that begin with a text match what begins with it.** -/
theorem prefix_of_mem (h : Begins start ts) (hw : w ∈ sequenceLanguage ts) :
    Text.bytesOf start <+: w := by
  cases h with
  | kept more =>
    obtain ⟨rest, -, rfl⟩ := prefix_of_mem_literals hw
    exact List.prefix_append _ _
  | crossed hstart ht more =>
    obtain ⟨rest, hrest, rfl⟩ := prefix_of_mem_literals hw
    obtain ⟨rest, rfl⟩ := slash_of_mem_crossing ht hrest
    rw [hstart, Text.bytesOf_append]
    exact ⟨rest, List.append_assoc _ _ _⟩

theorem prefix_of_isMatch (h : Begins start ts) (hw : isMatch ts w = true) :
    Text.bytesOf start <+: w := by
  by_cases hall : ts = [.leading]
  · rw [h.eq_nil_of_leading hall]
    exact List.nil_prefix
  · exact h.prefix_of_mem (mem_of_isMatch hall hw)

end Begins

/-! ## Reading on behind a text -/

namespace Scanner

/-- The tokens before the outermost of the alternations that are open, or all of them. -/
def outermost : List Group → List Token → List Token
  | [], ts => ts
  | g :: groups, _ => outermost groups g.before

variable {s s' : Scanner} {c : Char} {start : List Char}

theorem begins_outermost_append {groups : List Group} {ts : List Token}
    (h : Begins start (outermost groups ts)) (more : List Token) :
    Begins start (outermost groups (ts ++ more)) := by
  cases groups with
  | nil => exact h.append more
  | cons g groups => exact h

/-- **An edit takes nothing away from the beginning.** -/
theorem Edit.begins (h : Edit s s') (hs : Begins start (outermost s.groups s.tokens)) :
    Begins start (outermost s'.groups s'.tokens) := by
  cases h with
  | stay hgroups htokens => rwa [hgroups, htokens]
  | push t _ hgroups htokens =>
    rw [hgroups, htokens]
    exact begins_outermost_append hs [t]
  | lead hempty hgroups htokens =>
    rw [hgroups, htokens]
    rw [hempty] at hs
    exact begins_outermost_append hs [.leading]
  | cross t ht hne hslash hgroups htokens =>
    rw [hgroups, htokens]
    cases hopen : s.groups with
    | nil =>
      rw [hopen] at hs
      exact Begins.crossing hs ht hne (hslash hopen)
    | cons g groups => rwa [hopen] at hs
  | openGroup hgroups htokens =>
    rw [hgroups, htokens]
    exact hs
  | comma hopen hgroups htokens =>
    rw [hgroups, htokens]
    rwa [hopen] at hs
  | @closeGroup g groups hopen hgroups htokens =>
    rw [hgroups, htokens]
    rw [hopen, outermost] at hs
    exact begins_outermost_append hs _

theorem Edits.begins (h : Edits s s') (hs : Begins start (outermost s.groups s.tokens)) :
    Begins start (outermost s'.groups s'.tokens) := by
  induction h with
  | refl => exact hs
  | tail _ hedit ih => exact hedit.begins ih

/-! ## Reading the text itself -/

/-- Outside of alternations a character that is no wildcard is a backslash or stands for itself. -/
theorem plainStep_of_not_wildcard (hc : PathPattern.isWildcard c = false) (hgroups : s.groups = [])
    (hstep : s.plainStep c = .ok s') :
    (c = '\\' ∧ s' = { s with last := some c, mode := .escape })
      ∨ (c ≠ '\\' ∧ s' = { s.push (.literal c) with last := some c, mode := .plain }) := by
  unfold plainStep at hstep
  split at hstep
  · cases hc
  · cases hc
  · cases hc
  · cases hc
  · rw [closeGroup, hgroups] at hstep
    cases hstep
  · cases hstep
    rw [comma, hgroups]
    exact Or.inr ⟨by decide, rfl⟩
  · cases hstep
    exact Or.inl ⟨rfl, rfl⟩
  · rename_i hescape
    cases hstep
    exact Or.inr ⟨hescape, rfl⟩

theorem step_of_plain (hmode : s.mode = .plain) (c : Char) : s.step c = s.plainStep c := by
  rw [step, hmode]

theorem step_of_escape (hmode : s.mode = .escape) (c : Char) :
    s.step c = .ok { s.push (.literal c) with last := some c, mode := .plain } := by
  rw [step, hmode]

/-- **What stands before the first wildcard is read as it is, without the backslashes.** -/
theorem run_of_not_wildcard (hstart : ∀ c ∈ start, PathPattern.isWildcard c = false)
    (hrun : s.run start = .ok s') (hmode : s.mode = .plain) (hgroups : s.groups = []) :
    s'.groups = [] ∧ s'.tokens = s.tokens ++ (withoutEscapes start).map .literal := by
  induction start using withoutEscapes.induct generalizing s with
  | case1 =>
    cases hrun
    exact ⟨hgroups, (List.append_nil _).symm⟩
  | case2 =>
    -- the backslash keeps the first wildcard
    obtain ⟨s₁, hstep, hrest⟩ := exists_step_of_run hrun
    rw [step_of_plain hmode] at hstep
    cases hstep
    cases hrest
    exact ⟨hgroups, (List.append_nil _).symm⟩
  | case3 c text ih =>
    obtain ⟨s₁, hstep, hrest⟩ := exists_step_of_run hrun
    rw [step_of_plain hmode] at hstep
    cases hstep
    obtain ⟨s₂, hstep, hrest⟩ := exists_step_of_run hrest
    rw [step_of_escape rfl] at hstep
    cases hstep
    have htext : ∀ c ∈ text, PathPattern.isWildcard c = false := fun d hd =>
      hstart d (List.mem_cons_of_mem _ (List.mem_cons_of_mem _ hd))
    obtain ⟨hgroups', htokens⟩ := ih htext hrest rfl hgroups
    refine ⟨hgroups', htokens.trans ?_⟩
    rw [withoutEscapes, List.map_cons, push, List.append_assoc]
    rfl
  | case4 c text hlone hescape ih =>
    obtain ⟨s₁, hstep, hrest⟩ := exists_step_of_run hrun
    rw [step_of_plain hmode] at hstep
    obtain ⟨hc, htext⟩ := List.forall_mem_cons.mp hstart
    have hne : c ≠ '\\' := by
      rintro rfl
      cases text with
      | nil => exact hlone rfl rfl
      | cons d text => exact hescape d text rfl rfl
    obtain ⟨heq, -⟩ | ⟨-, rfl⟩ := plainStep_of_not_wildcard hc hgroups hstep
    · exact absurd heq hne
    obtain ⟨hgroups', htokens⟩ := ih htext hrest rfl hgroups
    refine ⟨hgroups', htokens.trans ?_⟩
    rw [withoutEscapes_cons hne, List.map_cons, push, List.append_assoc]
    rfl

end Scanner

/-- **A glob begins with what stands before the first wildcard of its text.** -/
theorem begins_of_ofChars? {start more : List Char} {glob : Glob}
    (hstart : ∀ c ∈ start, PathPattern.isWildcard c = false)
    (h : ofChars? (start ++ more) = .ok glob) : Begins (withoutEscapes start) glob := by
  unfold ofChars? at h
  obtain ⟨s₂, hrun, hfinish⟩ := bind_eq_ok_iff.mp h
  rw [Scanner.run_append] at hrun
  obtain ⟨s₁, hfirst, hrest⟩ := bind_eq_ok_iff.mp hrun
  obtain ⟨-, hrecalls₁⟩ := Scanner.edits_run (Scanner.recalls_of_nil rfl) hfirst
  obtain ⟨hedits, hrecalls₂⟩ := Scanner.edits_run hrecalls₁ hrest
  obtain ⟨s₃, hlast, hclosed, rfl⟩ := Scanner.edits_finish hrecalls₂ hfinish
  obtain ⟨hgroups, htokens⟩ := Scanner.run_of_not_wildcard hstart hfirst rfl rfl
  have hs₁ : Begins (withoutEscapes start) (Scanner.outermost s₁.groups s₁.tokens) := by
    rw [hgroups, htokens]
    exact Begins.literals _
  have hs₃ := Scanner.Edits.begins (hedits.trans hlast) hs₁
  rwa [hclosed] at hs₃

end Glob

/-! ## Patterns -/

namespace PathPattern

theorem isWildcard_of_mem_literalStart (text : List Char) :
    ∀ c ∈ literalStart text, isWildcard c = false := by
  intro c hc
  simpa using List.mem_takeWhile_imp hc

/-- The slashes at the end of a text come after its first wildcard. -/
theorem literalStart_prefix_dropTrailingSlashes {text : List Char}
    (h : text.any isWildcard = true) : literalStart text <+: dropTrailingSlashes text := by
  obtain ⟨n, htext⟩ := exists_eq_dropTrailingSlashes text
  have hbase : (dropTrailingSlashes text).any isWildcard = true := by
    rwa [htext, any_isWildcard_append] at h
  have hstart : literalStart text = literalStart (dropTrailingSlashes text) := by
    conv_lhs => rw [htext]
    exact literalStart_append hbase _
  rw [hstart]
  exact List.takeWhile_prefix _

theorem ofChars?_of_readBoth {base : List Char} {globs : Glob × Glob}
    (h : readBoth base = .ok globs) :
    Glob.ofChars? base = .ok globs.1 ∧ Glob.ofChars? (base ++ "/**".toList) = .ok globs.2 := by
  unfold readBoth at h
  obtain ⟨exact, hexact, h⟩ := bind_eq_ok_iff.mp h
  obtain ⟨below, hbelow, h⟩ := bind_eq_ok_iff.mp h
  split at h
  · cases h
  · cases h
    exact ⟨ofChars?_of_readGlob hexact, ofChars?_of_readGlob hbelow⟩

/-- **Both globs of a pattern begin with what stands before its first wildcard.** -/
theorem begins_of_parse {raw raw' : String} {exact below : Glob} {specificity : Specificity}
    (h : parse raw = .ok (.glob raw' exact below specificity)) :
    specificity = globSpecificity (textOf raw)
      ∧ Glob.Begins (Glob.withoutEscapes (literalStart (textOf raw))) exact
      ∧ Glob.Begins (Glob.withoutEscapes (literalStart (textOf raw))) below := by
  rw [parse_eq] at h
  split at h
  · cases h
  split at h
  · rename_i hwild
    obtain ⟨more, hbase⟩ := literalStart_prefix_dropTrailingSlashes hwild
    have hstart := isWildcard_of_mem_literalStart (textOf raw)
    rw [ofGlobText_eq, ← hbase] at h
    cases hread : readBoth (literalStart (textOf raw) ++ more) with
    | error fault => rw [hread] at h; cases h
    | ok globs =>
      rw [hread] at h
      cases h
      obtain ⟨hexact, hbelow⟩ := ofChars?_of_readBoth hread
      rw [List.append_assoc] at hbelow
      exact ⟨rfl, Glob.begins_of_ofChars? hstart hexact, Glob.begins_of_ofChars? hstart hbelow⟩
  · split at h
    · cases h
    · cases h

/--
**A glob matches only what begins like its text.**

Whatever text a glob pattern was read from: the specificity counts the bytes and the slashes of what
stands before the first wildcard. Every path that the glob matches begins with these characters, except
for the backslashes that keep another character. So if there are none, the path begins with as many
bytes of the text as the specificity says.
-/
theorem isMatch_begins_with_start {raw : String} {pattern : PathPattern}
    (h : parse raw = .ok pattern) (hglob : pattern.isGlob = true) (path : String)
    (hmatch : pattern.isMatch path = true) :
    let start := literalStart (textOf raw)
    let counted := (Text.bytesOf (textOf raw)).take pattern.specificity.chars
    let path := Text.bytesOf (Path.normalizeChars path.toList)
    counted = Text.bytesOf start
      ∧ counted.count Glob.slash = pattern.specificity.components
      ∧ Text.bytesOf (Glob.withoutEscapes start) <+: path
      ∧ (Text.bytesOf (Glob.withoutEscapes start)).count Glob.slash = pattern.specificity.components
      ∧ ('\\' ∉ start → counted <+: path) := by
  intro start counted path'
  cases pattern with
  | literal raw' components => cases hglob
  | glob raw' exact below specificity =>
    obtain ⟨rfl, hexact, hbelow⟩ := begins_of_parse h
    have hcounted : counted = Text.bytesOf start := by
      have htext : Text.bytesOf (textOf raw) = Text.bytesOf start
          ++ Text.bytesOf ((textOf raw).dropWhile fun c => !isWildcard c) := by
        rw [← Text.bytesOf_append]
        exact congrArg Text.bytesOf List.takeWhile_append_dropWhile.symm
      have htake := congrArg (List.take (Text.bytesOf start).length) htext
      rwa [List.take_left] at htake
    have hslashes (text : List Char) : (Text.bytesOf text).count Glob.slash = text.count '/' :=
      Text.count_bytesOf (a := '/') (by decide) text
    have hprefix : Text.bytesOf (Glob.withoutEscapes start) <+: path' := by
      rcases (Bool.or_eq_true _ _).mp hmatch with hmatch | hmatch
      · exact hexact.prefix_of_isMatch hmatch
      · exact hbelow.prefix_of_isMatch hmatch
    refine ⟨hcounted, ?_, hprefix, ?_, fun hnone => ?_⟩
    · rw [hcounted, hslashes]
      rfl
    · rw [hslashes, Glob.count_slash_withoutEscapes]
      rfl
    · rw [Glob.withoutEscapes_eq_self hnone, ← hcounted] at hprefix
      exact hprefix

/-- Two stars take in the slash at the end of what is counted, and the path has it. -/
theorem isMatch_begins_with_start_crossed :
    let raw := "./src/doc/**/*.rs/"
    ∃ pattern, parse raw = .ok pattern ∧ pattern.isGlob = true
      ∧ pattern.isMatch "./src/doc/x/y.rs/z" = true ∧ pattern.specificity = ⟨2, 8⟩
      ∧ (Text.bytesOf (textOf raw)).take 8 <+: Text.bytes "src/doc/x/y.rs/z" := by
  intro raw
  have hread : (parse raw).toOption.any (fun pattern => pattern.isGlob
      && pattern.isMatch "./src/doc/x/y.rs/z" && pattern.specificity == ⟨2, 8⟩) = true := by
    decide +kernel
  obtain ⟨pattern, hparse, hread⟩ := exists_parse_of_any hread
  rw [Bool.and_eq_true, Bool.and_eq_true, beq_iff_eq] at hread
  obtain ⟨⟨hglob, hmatch⟩, hspecificity⟩ := hread
  obtain ⟨-, -, -, -, hplain⟩ := isMatch_begins_with_start hparse hglob _ hmatch
  have hstart := hplain (by decide)
  rw [hspecificity] at hstart
  exact ⟨pattern, hparse, hglob, hmatch, hspecificity, hstart⟩

/-- A backslash before the first wildcard is counted, but the path does not have it. -/
theorem not_counted_prefix_escaped :
    ∃ pattern, parse "a\\*" = .ok pattern ∧ pattern.isGlob = true ∧ pattern.isMatch "a*" = true
      ∧ pattern.specificity = ⟨0, 2⟩
      ∧ ¬(Text.bytesOf (textOf "a\\*")).take 2 <+: Text.bytes "a*" := by
  have hread : (parse "a\\*").toOption.any (fun pattern => pattern.isGlob
      && pattern.isMatch "a*" && pattern.specificity == ⟨0, 2⟩) = true := by decide +kernel
  obtain ⟨pattern, hparse, hread⟩ := exists_parse_of_any hread
  rw [Bool.and_eq_true, Bool.and_eq_true, beq_iff_eq] at hread
  obtain ⟨⟨hglob, hmatch⟩, hspecificity⟩ := hread
  exact ⟨pattern, hparse, hglob, hmatch, hspecificity, by decide⟩

end PathPattern

end PathLabels
