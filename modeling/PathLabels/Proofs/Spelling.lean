import Mathlib.Data.List.TakeWhile
import PathLabels.Proofs.Listing
import PathLabels.Proofs.Subtree

/-!
# The spelling of a pattern

Slashes behind a pattern and one `./` before it do not count, and neither does one `./` before a path.
The slashes are left out at two places: a pattern that names components passes over the empty ones,
and a glob is read without the slashes at its end. The specificity of a glob comes from the text with
them, but only from what stands before the first wildcard, which the slashes at the end come after.
-/

namespace PathLabels

namespace Text

theorem unpadded_of_forall {s : List Char} (h : ∀ c ∈ s, isBlank c = false) : Unpadded s :=
  ⟨fun c hc => h c (List.mem_of_mem_head? hc), fun c hc => h c (List.mem_of_mem_getLast? hc)⟩

theorem Unpadded.append {s t : List Char} (hs : Unpadded s) (ht : Unpadded t) :
    Unpadded (s ++ t) where
  head c hc := by
    rw [List.head?_append, Option.mem_def, Option.or_eq_some_iff] at hc
    rcases hc with hc | ⟨_, hc⟩
    · exact hs.head c hc
    · exact ht.head c hc
  last c hc := by
    rw [List.getLast?_append, Option.mem_def, Option.or_eq_some_iff] at hc
    rcases hc with hc | ⟨_, hc⟩
    · exact ht.last c hc
    · exact hs.last c hc

theorem Unpadded.trimChars_eq {s : List Char} (h : Unpadded s) : trimChars s = s := by
  have hnone : ∀ c ∈ ([] : List Char), isBlank c = true := fun _ hc => nomatch hc
  simpa using trimChars_surrounded h hnone hnone

end Text

namespace Path

/-- Slashes at the end of a path make no component. -/
theorem components_append_slashes (s : List Char) (n : Nat) :
    components (s ++ List.replicate n '/') = components s := by
  induction n generalizing s with
  | zero => rw [List.replicate_zero, List.append_nil]
  | succ n ih =>
    have hslashes : components (List.replicate n '/') = [] := ih []
    rw [List.replicate_succ, components_append_slash, hslashes, List.append_nil]

end Path

namespace PathPattern

/-- The text of a pattern that is read. -/
def textOf (raw : String) : List Char := Path.normalizeChars (Text.trimChars raw.toList)

/-- Whether a pattern is a glob. -/
def isGlob : PathPattern → Bool
  | .literal _ _ => false
  | .glob _ _ _ _ => true

/-- Two patterns do the same, however they are written. -/
structure Alike (p q : PathPattern) : Prop where
  isGlob : p.isGlob = q.isGlob
  isMatch : ∀ path, p.isMatch path = q.isMatch path
  specificity : p.specificity = q.specificity
  literalPath : p.literalPath? = q.literalPath?

/-- Two texts that are read as patterns are both refused, or give patterns that do the same. -/
inductive Agree : Except PatternFault PathPattern → Except PatternFault PathPattern → Prop where
  | refused (fault fault' : PatternFault) : Agree (.error fault) (.error fault')
  | accepted {p q : PathPattern} : Alike p q → Agree (.ok p) (.ok q)

theorem Agree.exists_alike {p : PathPattern} {reading : Except PatternFault PathPattern}
    (h : Agree (.ok p) reading) : ∃ q, reading = .ok q ∧ Alike p q := by
  cases h with
  | accepted halike => exact ⟨_, rfl, halike⟩

/-! ## Slashes at the end -/

theorem dropTrailingSlashes_append (text : List Char) (n : Nat) :
    dropTrailingSlashes (text ++ List.replicate n '/') = dropTrailingSlashes text := by
  have hslashes : ∀ c ∈ List.replicate n '/', (c == '/') = true := by
    intro c hc
    rw [List.eq_of_mem_replicate hc]
    rfl
  rw [dropTrailingSlashes, dropTrailingSlashes, List.reverse_append, List.reverse_replicate,
    List.dropWhile_append_of_pos hslashes]

theorem any_isWildcard_append (text : List Char) (n : Nat) :
    (text ++ List.replicate n '/').any isWildcard = text.any isWildcard := by
  have hslashes : (List.replicate n '/').any isWildcard = false := by
    rw [List.any_eq_false]
    intro c hc
    rw [List.eq_of_mem_replicate hc]
    decide
  rw [List.any_append, hslashes, Bool.or_false]

/-- A text is what is left of it, with the slashes. -/
theorem exists_eq_dropTrailingSlashes (text : List Char) :
    ∃ n, text = dropTrailingSlashes text ++ List.replicate n '/' := by
  let slashes := text.reverse.takeWhile (· == '/')
  have hslashes : slashes = List.replicate slashes.length '/' := by
    refine List.eq_replicate_of_mem fun c hc => ?_
    have hslash := List.mem_takeWhile_imp hc
    exact eq_of_beq hslash
  refine ⟨slashes.length, ?_⟩
  rw [← List.reverse_inj, List.reverse_append, List.reverse_replicate, ← hslashes,
    dropTrailingSlashes, List.reverse_reverse]
  exact List.takeWhile_append_dropWhile.symm

/-- What stands before the first wildcard of a text. -/
def literalStart (text : List Char) : List Char := text.takeWhile fun c => !isWildcard c

/-- What stands before the first wildcard is the same, whatever stands behind it. -/
theorem literalStart_append {text : List Char} (h : text.any isWildcard = true)
    (more : List Char) : literalStart (text ++ more) = literalStart text := by
  unfold literalStart
  rw [List.takeWhile_append, if_neg]
  intro hlength
  have hall := (List.takeWhile_prefix fun c => !isWildcard c).eq_of_length hlength
  rw [List.takeWhile_eq_self_iff] at hall
  obtain ⟨c, hc, hwild⟩ := List.any_eq_true.mp h
  have hnone := hall c hc
  rw [hwild] at hnone
  cases hnone

theorem globSpecificity_append {text : List Char} (h : text.any isWildcard = true)
    (more : List Char) : globSpecificity (text ++ more) = globSpecificity text := by
  unfold globSpecificity
  dsimp only
  rw [← literalStart, ← literalStart, literalStart_append h]

/-- The two globs of a pattern, read from its text without the slashes at the end. -/
def readBoth (base : List Char) : Except PatternFault (Glob × Glob) := do
  let exact ← readGlob base
  let below ← readGlob (base ++ "/**".toList)
  if exact.depth > Glob.depthLimit || below.depth > Glob.depthLimit then
    throw (.tooDeep (if exact.endsInExtension then some exact.expression else none))
  return (exact, below)

/-- Only the specificity of a glob is taken from the text with the slashes. -/
theorem ofGlobText_eq (raw : String) (text : List Char) :
    ofGlobText raw text = (readBoth (dropTrailingSlashes text)).map fun globs =>
      .glob raw globs.1 globs.2 (globSpecificity text) := by
  unfold ofGlobText readBoth
  dsimp only
  cases readGlob (dropTrailingSlashes text) with
  | error fault => rfl
  | ok exact =>
    cases readGlob (dropTrailingSlashes text ++ "/**".toList) with
    | error fault => rfl
    | ok below =>
      simp only [bind, Except.bind]
      split
      · rfl
      · rfl

theorem agree_ofGlobText (raw raw' : String) {text text' : List Char}
    (hbase : dropTrailingSlashes text' = dropTrailingSlashes text)
    (hspecificity : globSpecificity text' = globSpecificity text) :
    Agree (ofGlobText raw text) (ofGlobText raw' text') := by
  rw [ofGlobText_eq, ofGlobText_eq, hbase, hspecificity]
  cases readBoth (dropTrailingSlashes text) with
  | error fault => exact .refused _ _
  | ok globs => exact .accepted ⟨rfl, fun _ => rfl, rfl, rfl⟩

theorem parse_eq (raw : String) :
    parse raw =
      if (textOf raw).isEmpty then .error .empty
      else if (textOf raw).any isWildcard then ofGlobText raw (textOf raw)
      else if (Path.components (textOf raw)).isEmpty then .error .noComponent
      else .ok (.literal raw (Path.components (textOf raw))) := rfl

/-- What can be computed of a pattern that is read. -/
theorem exists_parse_of_any {raw : String} {p : PathPattern → Bool}
    (h : (parse raw).toOption.any p = true) :
    ∃ pattern, parse raw = .ok pattern ∧ p pattern = true := by
  cases hparse : parse raw with
  | error fault => rw [hparse] at h; cases h
  | ok pattern =>
    rw [hparse] at h
    exact ⟨pattern, rfl, h⟩

/-- A text without components is refused if it has no wildcards. -/
theorem exists_fault_of_components_nil {raw : String}
    (hwild : (textOf raw).any isWildcard = false) (hnone : Path.components (textOf raw) = []) :
    ∃ fault, parse raw = .error fault := by
  rw [parse_eq, hwild, hnone]
  split
  · exact ⟨_, rfl⟩
  · exact ⟨_, rfl⟩

theorem textOf_ne_nil_of_wildcard {raw : String} (hwild : (textOf raw).any isWildcard = true) :
    textOf raw ≠ [] := by
  intro hnil
  rw [hnil] at hwild
  cases hwild

theorem parse_of_wildcard {raw : String} (hwild : (textOf raw).any isWildcard = true) :
    parse raw = ofGlobText raw (textOf raw) := by
  have hsome : ¬(textOf raw).isEmpty = true := fun h =>
    textOf_ne_nil_of_wildcard hwild (List.isEmpty_iff.mp h)
  rw [parse_eq, if_neg hsome, if_pos hwild]

theorem parse_of_components {raw : String} (hwild : (textOf raw).any isWildcard = false)
    (hsome : Path.components (textOf raw) ≠ []) :
    parse raw = .ok (.literal raw (Path.components (textOf raw))) := by
  have htext : ¬(textOf raw).isEmpty = true := by
    intro h
    rw [List.isEmpty_iff.mp h] at hsome
    exact hsome rfl
  rw [parse_eq, if_neg htext, if_neg (by simp [hwild]), if_neg (by simpa using hsome)]

/-- **Slashes at the end of the text that is read make no difference.** -/
theorem agree_of_slashes {raw raw' : String} {n : Nat}
    (h : textOf raw' = textOf raw ++ List.replicate n '/') : Agree (parse raw) (parse raw') := by
  have hwild' : (textOf raw').any isWildcard = (textOf raw).any isWildcard := by
    rw [h, any_isWildcard_append]
  have hcomponents : Path.components (textOf raw') = Path.components (textOf raw) := by
    rw [h, Path.components_append_slashes]
  by_cases hwild : (textOf raw).any isWildcard = true
  · rw [parse_of_wildcard hwild, parse_of_wildcard (hwild'.trans hwild), h]
    exact agree_ofGlobText raw raw' (dropTrailingSlashes_append _ n)
      (globSpecificity_append hwild _)
  · rw [Bool.not_eq_true] at hwild
    rw [hwild] at hwild'
    by_cases hnone : Path.components (textOf raw) = []
    · -- a text that is empty may become one of slashes only, and that is refused as well
      obtain ⟨fault, hfault⟩ := exists_fault_of_components_nil hwild hnone
      obtain ⟨fault', hfault'⟩ := exists_fault_of_components_nil hwild' (hcomponents.trans hnone)
      rw [hfault, hfault']
      exact .refused _ _
    · rw [parse_of_components hwild hnone, parse_of_components hwild' (hcomponents ▸ hnone),
        hcomponents]
      exact .accepted ⟨rfl, fun _ => rfl, rfl, rfl⟩

/-! ## Spellings -/

/-- A text with slashes behind it or with `./` before it. -/
inductive Respells (text : String) : String → Prop where
  | slashes (n : Nat) : Respells text (text ++ String.ofList (List.replicate n '/'))
  | dotSlash : Respells text ("./" ++ text)

section

variable {text : String} (hunpadded : Text.Unpadded text.toList)
  (hdirect : ¬['.', '/'] <+: text.toList)
include hunpadded

theorem textOf_dotSlash : textOf ("./" ++ text) = text.toList := by
  have hblank : ∀ c ∈ "./".toList, Text.isBlank c = false := by decide
  rw [textOf, String.toList_append, ((Text.unpadded_of_forall hblank).append hunpadded).trimChars_eq]
  rfl

include hdirect

theorem textOf_direct : textOf text = text.toList := by
  rw [textOf, hunpadded.trimChars_eq, Path.normalizeChars_of_direct hdirect]

theorem textOf_slashes (hdot : text ≠ ".") (n : Nat) :
    textOf (text ++ String.ofList (List.replicate n '/'))
      = text.toList ++ List.replicate n '/' := by
  have hblank : ∀ c ∈ List.replicate n '/', Text.isBlank c = false := by
    intro c hc
    rw [List.eq_of_mem_replicate hc]
    decide
  have hdirect' : ¬['.', '/'] <+: text.toList ++ List.replicate n '/' := by
    cases n with
    | zero => rwa [List.replicate_zero, List.append_nil]
    | succ n =>
      have hsingle : text.toList ≠ ['.'] := fun hsame => hdot (String.toList_inj.mp hsame)
      exact Path.not_dotSlash_append hdirect hsingle _
  rw [textOf, String.toList_append, String.toList_ofList,
    (hunpadded.append (Text.unpadded_of_forall hblank)).trimChars_eq,
    Path.normalizeChars_of_direct hdirect']

end

/--
**The spelling of a pattern does not matter.**

Let a text have no blanks at its ends, not begin with `./`, and not be a single dot. Written with any
number of slashes behind it or with `./` before it, it is accepted as a pattern exactly if it is
accepted as it stands; and then it is of the same kind, matches the same paths, and has the same
specificity and the same literal path.

And whatever text a pattern is read from, it matches a path that does not begin with `./` exactly if it
matches the path with `./` before it.
-/
theorem spellings_agree :
    (∀ text : String, Text.Unpadded text.toList → ¬['.', '/'] <+: text.toList → text ≠ "." →
        ∀ text', Respells text text' → Agree (parse text) (parse text'))
      ∧ ∀ raw pattern, parse raw = .ok pattern → ∀ path : String, ¬['.', '/'] <+: path.toList →
          pattern.isMatch ("./" ++ path) = pattern.isMatch path := by
  constructor
  · intro text hunpadded hdirect hdot text' hspelled
    have htext := textOf_direct hunpadded hdirect
    cases hspelled with
    | slashes n =>
      refine agree_of_slashes (n := n) ?_
      rw [textOf_slashes hunpadded hdirect hdot, htext]
    | dotSlash =>
      refine agree_of_slashes (n := 0) ?_
      rw [textOf_dotSlash hunpadded, htext, List.replicate_zero, List.append_nil]
  · intro raw pattern _ path hdirect
    have hdotted : Path.normalizeChars ("./" ++ path).toList = path.toList := by
      rw [String.toList_append]
      rfl
    have hplain := Path.normalizeChars_of_direct hdirect
    unfold isMatch
    rw [hdotted, hplain]

/-- A glob with a class, an escape and a slash of its own at the end. -/
theorem spellings_agree_escaped :
    let text := "src/[a-c]\\?**/"
    Text.Unpadded text.toList ∧ ¬['.', '/'] <+: text.toList ∧ text ≠ "."
      ∧ ¬['.', '/'] <+: "src/b?x/y".toList
      ∧ ∃ pattern dotted slashed, parse text = .ok pattern
          ∧ parse ("./" ++ text) = .ok dotted ∧ Alike pattern dotted
          ∧ parse (text ++ "///") = .ok slashed ∧ Alike pattern slashed
          ∧ slashed.isMatch ("./" ++ "src/b?x/y") = true := by
  intro text
  have hunpadded : Text.Unpadded text.toList := Text.unpadded_of_forall (by decide)
  have hdirect : ¬['.', '/'] <+: text.toList := by decide
  have hdot : text ≠ "." := by decide
  have hpath : ¬['.', '/'] <+: "src/b?x/y".toList := by decide
  obtain ⟨hspelled, hprefixed⟩ := spellings_agree
  have hread : (parse text).toOption.any (isMatch · "src/b?x/y") = true := by decide +kernel
  obtain ⟨pattern, hparse, hmatch⟩ := exists_parse_of_any hread
  have hagree := hspelled text hunpadded hdirect hdot
  rw [hparse] at hagree
  obtain ⟨dotted, hdotted, halike⟩ := (hagree _ .dotSlash).exists_alike
  obtain ⟨slashed, hslashed, halike'⟩ := (hagree _ (.slashes 3)).exists_alike
  have hmatch' : slashed.isMatch "src/b?x/y" = true := (halike'.isMatch _).symm.trans hmatch
  exact ⟨hunpadded, hdirect, hdot, hpath, pattern, dotted, slashed, hparse, hdotted, halike,
    hslashed, halike', (hprefixed _ slashed hslashed _ hpath).trans hmatch'⟩

end PathPattern

end PathLabels
