import PathLabels.Proofs.Compiling
import PathLabels.Proofs.GlobContinuation
import PathLabels.Proofs.GlobLanguage

/-!
# What lies below a path falls under its pattern

A pattern that names components matches by a prefix, so it matches whatever has more of them. A glob
pattern holds two globs, and whichever of the two matched the path, the one that ends in `/**` matches
what is below it.
-/

namespace PathLabels

/-! ## Paths that go on -/

namespace Path

theorem components_append_slash (s t : List Char) :
    components (s ++ '/' :: t) = components s ++ components t := by
  unfold components
  rw [List.splitOn_append_cons_self, List.filter_append, List.map_append]

/-- What follows makes a leading `./` only of a single dot. -/
theorem not_dotSlash_append {s : List Char} (h : ¬['.', '/'] <+: s) (hs : s ≠ ['.'])
    (t : List Char) : ¬['.', '/'] <+: s ++ '/' :: t := by
  rintro ⟨rest, hrest⟩
  match s with
  | [] => cases hrest
  | [c] =>
    cases hrest
    exact hs rfl
  | c :: d :: s =>
    cases hrest
    exact h ⟨s, rfl⟩

/-- What stands behind a path leaves its beginning as it is, unless the path is a single dot. -/
theorem normalizeChars_append_slash {s : List Char} (hs : s ≠ ['.']) (t : List Char) :
    normalizeChars (s ++ '/' :: t) = normalizeChars s ++ '/' :: t := by
  by_cases hdot : ['.', '/'] <+: s
  · obtain ⟨rest, rfl⟩ := hdot
    rfl
  rw [normalizeChars_of_direct hdot, normalizeChars_of_direct (not_dotSlash_append hdot hs _)]

end Path

/-! ## Globs that end in `/**` -/

namespace Glob

variable {ts : List Token} {glob exact below : Glob} {w : List UInt8}

theorem mem_append_trailing (h : w ∈ sequenceLanguage ts) (rest : List UInt8) :
    w ++ slash :: rest ∈ sequenceLanguage (ts ++ [.trailing]) := by
  rw [sequenceLanguage_append]
  have hrest : slash :: rest ∈ sequenceLanguage [.trailing] := by
    rw [sequenceLanguage, sequenceLanguage, mul_one]
    exact ⟨[slash], rfl, rest, fun _ _ => rfl, rfl⟩
  exact ⟨w, h, _, hrest, rfl⟩

theorem append_mem_trailing (h : w ∈ sequenceLanguage (ts ++ [.trailing])) (rest : List UInt8) :
    w ++ rest ∈ sequenceLanguage (ts ++ [.trailing]) := by
  rw [sequenceLanguage_append, sequenceLanguage, sequenceLanguage, mul_one] at h ⊢
  obtain ⟨start, hstart, _, ⟨_, rfl, more, _, rfl⟩, rfl⟩ := h
  exact ⟨start, hstart, _, ⟨[slash], rfl, more ++ rest, fun _ _ => rfl, rfl⟩, by simp⟩

/-- A glob that ends in `/**` asks for no file name. -/
theorem isMatch_trailing_iff :
    isMatch (ts ++ [.trailing]) w = true ↔ w ∈ sequenceLanguage (ts ++ [.trailing]) := by
  have hdot : asksForFinalDot (ts ++ [.trailing]) = false := by
    unfold asksForFinalDot
    rw [List.getLast?_concat]
    rfl
  unfold isMatch
  split
  · rename_i hleading
    have hlast := congrArg List.getLast? hleading
    rw [List.getLast?_concat] at hlast
    cases hlast
  · rw [hdot, Bool.false_and, Bool.not_false, Bool.and_true, tokensMatch_iff]

theorem mem_of_isMatch (hne : glob ≠ [.leading]) (h : isMatch glob w = true) :
    w ∈ sequenceLanguage glob := by
  unfold isMatch at h
  split at h
  · exact absurd rfl hne
  · exact tokensMatch_iff.mp (Bool.and_eq_true_iff.mp h).1

/-- **What a glob and its continuation match, they match with everything below it.** -/
theorem Continues.isMatch_append (h : Continues exact below)
    (hmatch : isMatch exact w = true ∨ isMatch below w = true) (rest : List UInt8) :
    isMatch exact (w ++ slash :: rest) = true ∨ isMatch below (w ++ slash :: rest) = true := by
  cases h with
  | everything => exact Or.inl rfl
  | already ts =>
    have hw : isMatch (ts ++ [.trailing]) w = true := hmatch.elim id id
    have hmem := append_mem_trailing (isMatch_trailing_iff.mp hw) (slash :: rest)
    exact Or.inr (isMatch_trailing_iff.mpr hmem)
  | further =>
    by_cases hall : exact = [.leading]
    · subst hall
      exact Or.inl rfl
    right
    rw [isMatch_trailing_iff] at hmatch ⊢
    rcases hmatch with h | h
    · exact mem_append_trailing (mem_of_isMatch hall h) rest
    · exact append_mem_trailing h (slash :: rest)

end Glob

/-! ## Patterns -/

namespace PathPattern

theorem ofChars?_of_readGlob {text : List Char} {glob : Glob} (h : readGlob text = .ok glob) :
    Glob.ofChars? text = .ok glob := by
  unfold readGlob at h
  cases hread : Glob.ofChars? text with
  | error fault => rw [hread] at h; cases h
  | ok glob' => rw [hread] at h; cases h; rfl

/-- The second glob of a pattern is the first one with `/**` behind it. -/
theorem continues_of_ofGlobText {raw raw' : String} {text : List Char} {exact below : Glob}
    {specificity : Specificity} (h : ofGlobText raw text = .ok (.glob raw' exact below specificity)) :
    Glob.Continues exact below := by
  unfold ofGlobText at h
  obtain ⟨exact', hexact, h⟩ := bind_eq_ok_iff.mp h
  obtain ⟨below', hbelow, h⟩ := bind_eq_ok_iff.mp h
  obtain ⟨below'', hread, hcontinues⟩ := Glob.exists_continuation (ofChars?_of_readGlob hexact)
  have hsame : below'' = below' := Except.ok.inj (hread.symm.trans (ofChars?_of_readGlob hbelow))
  subst hsame
  split at h
  · cases h
  · cases h
    exact hcontinues

theorem continues_of_parse {raw raw' : String} {exact below : Glob} {specificity : Specificity}
    (h : parse raw = .ok (.glob raw' exact below specificity)) : Glob.Continues exact below := by
  unfold parse at h
  dsimp only at h
  split at h
  · cases h
  split at h
  · exact continues_of_ofGlobText h
  · split at h
    · cases h
    · cases h

/--
**What is below a path falls under the patterns of the path.**

Whatever text a pattern was read from, and whether it names a path or is a glob: if it matches the
path `p`, it matches `p/q` for every text `q`. The path `.` is left out, because `./q` is the path `q`.
-/
theorem isMatch_below {raw : String} {pattern : PathPattern} (h : parse raw = .ok pattern)
    (p q : String) (hdot : p ≠ ".") (hmatch : pattern.isMatch p = true) :
    pattern.isMatch (p ++ "/" ++ q) = true := by
  have hchars : (p ++ "/" ++ q).toList = p.toList ++ '/' :: q.toList := by simp
  have hp : p.toList ≠ ['.'] := fun hsame => hdot (String.toList_inj.mp hsame)
  have hnormal : Path.normalizeChars (p ++ "/" ++ q).toList
      = Path.normalizeChars p.toList ++ '/' :: q.toList := by
    rw [hchars, Path.normalizeChars_append_slash hp]
  unfold isMatch at hmatch ⊢
  rw [hnormal]
  cases pattern with
  | literal raw' components =>
    dsimp only at hmatch ⊢
    rw [Path.components_append_slash]
    rw [List.isPrefixOf_iff_prefix] at hmatch ⊢
    exact hmatch.trans (List.prefix_append _ _)
  | glob raw' exact below specificity =>
    dsimp only at hmatch ⊢
    have hbytes : Text.bytesOf (Path.normalizeChars p.toList ++ '/' :: q.toList)
        = Text.bytesOf (Path.normalizeChars p.toList) ++ Glob.slash :: Text.bytesOf q.toList := by
      rw [Text.bytesOf_append]
      rfl
    rw [hbytes, Bool.or_eq_true]
    exact (continues_of_parse h).isMatch_append (Bool.or_eq_true _ _ ▸ hmatch) _

/-- Braces with `/**` at the end of a branch, then a class, an escape, two stars that are not a
component, and a slash at the end. -/
theorem isMatch_below_branches :
    let raw := "./src/\x7b*.rs,doc/**\x7d/[a-c]\\?**/"
    ∃ pattern, parse raw = .ok pattern ∧ "src/doc/x/y/b?z" ≠ "."
      ∧ pattern.isMatch "src/doc/x/y/b?z" = true
      ∧ pattern.isMatch ("src/doc/x/y/b?z" ++ "/" ++ "..//a") = true := by
  intro raw
  have hread : (parse raw).toOption.any (isMatch · "src/doc/x/y/b?z") = true := by decide +kernel
  cases hparse : parse raw with
  | error fault =>
    rw [hparse] at hread
    cases hread
  | ok pattern =>
    rw [hparse] at hread
    have hmatch : pattern.isMatch "src/doc/x/y/b?z" = true := hread
    have hdot : "src/doc/x/y/b?z" ≠ "." := by decide
    exact ⟨pattern, rfl, hdot, hmatch, isMatch_below hparse _ _ hdot hmatch⟩

end PathPattern

end PathLabels
