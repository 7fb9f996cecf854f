import PathLabels.Proofs.Components
import PathLabels.Proofs.Listing
import PathLabels.Repository

/-!
# Repositories and the texts that name them

A repository is written as its owner and its name with a slash between them. Neither part is empty and
neither has a slash, so the written form is cut in one way only, and it says which repository it is.
Blanks around it do not count. Blanks next to the slash do: they belong to the parts, and the written
form keeps them.
-/

namespace PathLabels

/-- What trimming leaves has no blanks at its ends. -/
theorem Text.unpadded_trimChars (s : List Char) : Unpadded (trimChars s) := by
  have hfirst (t : List Char) : ∀ c ∈ (t.dropWhile isBlank).head?, isBlank c = false := by
    intro c hc
    have hhead := List.head?_dropWhile_not isBlank t
    rw [Option.mem_def.mp hc] at hhead
    exact hhead
  refine ⟨fun c hc => ?_, fun c hc => ?_⟩
  · -- cutting off the blanks at the end leaves the first character where it was
    obtain ⟨rest, hrest⟩ : trimChars s <+: s.dropWhile isBlank := by
      rw [trimChars, ← List.reverse_suffix, List.reverse_reverse]
      exact List.dropWhile_suffix isBlank
    refine hfirst s c ?_
    rw [← hrest, List.head?_append, Option.mem_def.mp hc]
    rfl
  · rw [trimChars, List.getLast?_reverse] at hc
    exact hfirst _ c hc

/-- A text is cut in two exactly if it has one separator, and then into what stands before and
behind it. -/
theorem splitOn_eq_pair_iff {x : Char} {s before behind : List Char} :
    s.splitOn x = [before, behind] ↔ s = before ++ x :: behind ∧ x ∉ before ∧ x ∉ behind := by
  have hjoined : [x].intercalate [before, behind] = before ++ x :: behind := by
    simp [List.intercalate]
  constructor
  · intro hsplit
    have hpart : ∀ part ∈ [before, behind], x ∉ part := by
      rw [← hsplit]
      exact fun _ => not_mem_of_mem_splitOn
    have hs : [x].intercalate (s.splitOn x) = s := List.intercalate_splitOn x
    rw [hsplit, hjoined] at hs
    exact ⟨hs.symm, hpart before (by simp), hpart behind (by simp)⟩
  · intro h
    obtain ⟨hs, hbefore, hbehind⟩ := h
    have hpart : ∀ part ∈ [before, behind], x ∉ part := by
      simp [hbefore, hbehind]
    rw [hs, ← hjoined]
    exact List.splitOn_intercalate x hpart (by simp)

namespace Repository

variable {s t : String} {r r' : Repository}

/-- The parts of a repository are texts that can stand on the two sides of the slash. -/
structure IsProper (r : Repository) : Prop where
  owner : Path.IsComponent r.owner
  name : Path.IsComponent r.name

/-- A text has one slash, and there is something on each side of it. -/
structure IsWritten (s : String) : Prop where
  oneSlash : s.toList.count '/' = 1
  before : s.toList.head? ≠ some '/'
  behind : s.toList.getLast? ≠ some '/'

theorem toList_text (r : Repository) :
    r.text.toList = r.owner.toList ++ '/' :: r.name.toList := by
  simp [text]

theorem ofText?_eq_some_iff :
    ofText? s = some r ↔ (Text.trimChars s.toList).splitOn '/' = [r.owner.toList, r.name.toList]
      ∧ r.owner ≠ "" ∧ r.name ≠ "" := by
  unfold ofText?
  split
  · rename_i owner name hsplit
    rw [hsplit]
    constructor
    · intro h
      split at h
      · cases h
      · rename_i hempty
        obtain rfl := Option.some.inj h
        simpa using hempty
    · intro h
      obtain ⟨hparts, howner, hname⟩ := h
      obtain ⟨rfl, rfl⟩ : owner = r.owner.toList ∧ name = r.name.toList := by simpa using hparts
      simp [howner, hname]
  · rename_i hother
    constructor
    · intro h
      cases h
    · intro h
      exact absurd h.1 (hother _ _)

theorem parse_eq_ok_iff_ofText? : parse s = .ok r ↔ ofText? s = some r := by
  unfold parse
  cases ofText? s <;> simp

/-- **A text names a repository exactly if it is its written form**, blanks around it apart. -/
theorem parse_eq_ok_iff : parse s = .ok r ↔ r.IsProper ∧ r.text = Text.trim s := by
  rw [parse_eq_ok_iff_ofText?, ofText?_eq_some_iff, splitOn_eq_pair_iff, ← toList_text, ← Text.toList_trim,
    String.toList_inj]
  constructor
  · intro h
    obtain ⟨⟨htext, howner, hname⟩, howner', hname'⟩ := h
    exact ⟨⟨⟨howner', howner⟩, ⟨hname', hname⟩⟩, htext.symm⟩
  · intro h
    obtain ⟨hproper, htext⟩ := h
    exact ⟨⟨htext.symm, hproper.owner.noSlash, hproper.name.noSlash⟩, hproper.owner.nonempty,
      hproper.name.nonempty⟩

theorem isWritten_text (h : r.IsProper) : IsWritten r.text := by
  have howner : r.owner.toList ≠ [] := by simpa using h.owner.nonempty
  have hname : r.name.toList ≠ [] := by simpa using h.name.nonempty
  refine ⟨?_, ?_, ?_⟩
  · rw [toList_text, List.count_append, List.count_cons_self,
      List.count_eq_zero_of_not_mem h.owner.noSlash, List.count_eq_zero_of_not_mem h.name.noSlash]
  · intro hhead
    rw [toList_text, List.head?_append_of_ne_nil _ howner] at hhead
    exact h.owner.noSlash (List.mem_of_mem_head? hhead)
  · intro hlast
    rw [toList_text, List.append_cons, List.getLast?_append_of_ne_nil _ hname] at hlast
    exact h.name.noSlash (List.mem_of_mem_getLast? hlast)

/-- The texts with one slash between two parts are the written forms of repositories. -/
theorem isWritten_iff : IsWritten s ↔ ∃ r : Repository, r.IsProper ∧ r.text = s := by
  constructor
  · intro h
    have hmem : '/' ∈ s.toList := List.count_pos_iff.mp (by rw [h.oneSlash]; exact Nat.one_pos)
    obtain ⟨owner, name, hs, howner⟩ := List.eq_append_cons_of_mem hmem
    have hname : '/' ∉ name := by
      have hcount := h.oneSlash
      rw [hs, List.count_append, List.count_cons_self] at hcount
      exact List.count_eq_zero.mp (by omega)
    have hnonempty : owner ≠ [] ∧ name ≠ [] := by
      constructor
      · intro hnil
        exact h.before (by rw [hs, hnil]; rfl)
      · intro hnil
        exact h.behind (by rw [hs, hnil, List.getLast?_concat])
    refine ⟨⟨String.ofList owner, String.ofList name⟩, ⟨⟨?_, ?_⟩, ⟨?_, ?_⟩⟩, ?_⟩
    · simpa using hnonempty.1
    · simpa using howner
    · simpa using hnonempty.2
    · simpa using hname
    · rw [← String.toList_inj, toList_text, hs]
      simp
  · intro h
    obtain ⟨r, hproper, rfl⟩ := h
    exact isWritten_text hproper

/-- Blanks around the written form of a repository that has been read make no difference. -/
theorem parse_surrounded {before after : String} (h : parse s = .ok r)
    (hbefore : Text.allBlank before = true) (hafter : Text.allBlank after = true) :
    parse (before ++ r.text ++ after) = .ok r := by
  obtain ⟨hproper, htext⟩ := parse_eq_ok_iff.mp h
  have hunpadded : Text.Unpadded r.text.toList := by
    rw [htext, Text.toList_trim]
    exact Text.unpadded_trimChars s.toList
  refine parse_eq_ok_iff.mpr ⟨hproper, ?_⟩
  rw [← String.toList_inj, Text.toList_trim, String.toList_append, String.toList_append]
  exact (Text.trimChars_surrounded hunpadded (List.all_eq_true.mp hbefore)
    (List.all_eq_true.mp hafter)).symm

/-- What is read depends on the text without the blanks around it, and on all of that. -/
theorem eq_iff_trim_eq (h : parse s = .ok r) (h' : parse t = .ok r') :
    r = r' ↔ Text.trim s = Text.trim t := by
  obtain ⟨_, htext⟩ := parse_eq_ok_iff.mp h
  obtain ⟨hproper', htext'⟩ := parse_eq_ok_iff.mp h'
  constructor
  · intro hsame
    rw [← htext, ← htext', hsame]
  · intro htrim
    have hagain : parse s = .ok r' := parse_eq_ok_iff.mpr ⟨hproper', by rw [htrim, htext']⟩
    exact Except.ok.inj (h.symm.trans hagain)

/--
**A repository is read from its written form, and written as it was read.**

A text is accepted exactly if it has, without the blanks around it, one slash with something on each
side. Then the written form of the repository is the text without these blanks, and whatever blanks
are put around the written form, the same repository is read from it. Two texts that are accepted
name the same repository exactly if they are equal without the blanks around them. And a text that is
refused is reported as it was given.
-/
theorem parse_undoes_text (s : String) :
    ((∃ r, parse s = .ok r) ↔ IsWritten (Text.trim s))
      ∧ (∀ r, parse s = .ok r → r.text = Text.trim s
          ∧ ∀ before after, Text.allBlank before = true → Text.allBlank after = true →
            parse (before ++ r.text ++ after) = .ok r)
      ∧ (∀ t r r', parse s = .ok r → parse t = .ok r' →
          (r = r' ↔ Text.trim s = Text.trim t))
      ∧ ∀ e, parse s = .error e → e = .invalidRepository s := by
  refine ⟨?_, ?_, ?_, ?_⟩
  · simp only [parse_eq_ok_iff, isWritten_iff]
  · intro r h
    refine ⟨(parse_eq_ok_iff.mp h).2, ?_⟩
    intro before after hbefore hafter
    exact parse_surrounded h hbefore hafter
  · intro t r r' h h'
    exact eq_iff_trim_eq h h'
  · intro e h
    unfold parse at h
    split at h
    · cases h
    · exact (Except.error.inj h).symm

/-- Blanks next to the slash belong to the parts, and those around the text do not. -/
theorem parse_undoes_text_blanks :
    let s := "\u2003leanprover-community /\tmathlib4\n"
    let r : Repository := ⟨"leanprover-community ", "\tmathlib4"⟩
    parse s = .ok r ∧ IsWritten (Text.trim s) ∧ r.text = "leanprover-community /\tmathlib4"
      ∧ parse ("\u00A0" ++ r.text ++ "  ") = .ok r
      ∧ parse "leanprover-community/mathlib4" ≠ .ok r := by
  intro s r
  have hread : parse s = .ok r := by decide +kernel
  have htrim : Text.trim s = "leanprover-community /\tmathlib4" := by decide +kernel
  obtain ⟨haccepted, hround, hsame, -⟩ := parse_undoes_text s
  obtain ⟨htext, hagain⟩ := hround r hread
  refine ⟨hread, haccepted.mp ⟨r, hread⟩, htext.trans htrim, hagain _ _ (by decide) (by decide), ?_⟩
  intro hother
  have htrim' := (hsame _ r r hread hother).mp rfl
  rw [htrim] at htrim'
  revert htrim'
  decide +kernel

end Repository

end PathLabels
