import PathLabels.Cli.Execution

/-!
# Paths on lines

Paths may be given as lines of a text. What a reader of the lines takes for a path is the line
without the blanks around it, so spaces before a path and the carriage return of a line end do no
harm, and a blank line names no path. All of that works for paths that have no blanks of their own
at their ends: these come back as they were written.
-/

namespace PathLabels

namespace Text

/-- No blank stands at an end of the characters. -/
structure Unpadded (s : List Char) : Prop where
  head : ∀ c ∈ s.head?, isBlank c = false
  last : ∀ c ∈ s.getLast?, isBlank c = false

theorem dropWhile_isBlank {s : List Char} (h : ∀ c ∈ s.head?, isBlank c = false) :
    s.dropWhile isBlank = s := by
  cases s with
  | nil => rfl
  | cons c s => exact List.dropWhile_cons_of_neg (by rw [h c rfl]; exact Bool.false_ne_true)

/-- **Trimming takes away the blanks around a text and nothing else.** -/
theorem trimChars_surrounded {before s after : List Char} (hs : Unpadded s)
    (hbefore : ∀ c ∈ before, isBlank c = true) (hafter : ∀ c ∈ after, isBlank c = true) :
    trimChars (before ++ s ++ after) = s := by
  rw [trimChars, List.append_assoc, List.dropWhile_append_of_pos hbefore]
  cases s with
  | nil =>
    rw [List.nil_append, ← List.append_nil after, List.dropWhile_append_of_pos hafter]
    rfl
  | cons c s =>
    have hfirst : ((c :: s) ++ after).dropWhile isBlank = (c :: s) ++ after :=
      dropWhile_isBlank fun d hd => hs.head d hd
    rw [hfirst, List.reverse_append,
      List.dropWhile_append_of_pos fun d hd => hafter d (List.mem_reverse.mp hd),
      dropWhile_isBlank fun d hd => hs.last d (List.head?_reverse ▸ hd), List.reverse_reverse]

end Text

/-! ## Paths that are entries of their own -/

/-- A path that a line may hold: it has no line break, no blanks at its ends, and does not begin
with `./`. -/
structure Path.Plain (path : String) : Prop where
  oneLine : '\n' ∉ path.toList
  unpadded : Text.Unpadded path.toList
  direct : ¬['.', '/'] <+: path.toList

theorem Path.normalize_of_direct {path : String} (h : ¬['.', '/'] <+: path.toList) :
    Path.normalize path = path := by
  rw [Path.normalize, Path.normalizeChars_of_direct h, String.ofList_toList]

namespace ChangeSet

theorem entry?_empty : entry? "" = none := by
  have hblank : Text.allBlank "" = true := rfl
  unfold entry?
  rw [hblank]
  rfl

theorem ne_empty_of_entry {path p : String} (h : entry? path = some p) : p ≠ "" := by
  rintro rfl
  unfold entry? at h
  dsimp only at h
  split at h
  · cases h
  · rename_i hvalid
    rw [Option.some.inj h] at hvalid
    exact hvalid (by simp)

/-- A path with no blanks at its ends that does not begin with `./` stands for itself. -/
theorem entry?_self {p : String} (hp : p ≠ "") (hunpadded : Text.Unpadded p.toList)
    (hdirect : ¬['.', '/'] <+: p.toList) : entry? p = some p := by
  have hblank : Text.allBlank p = false := by
    rw [Text.allBlank, List.all_eq_false]
    cases hchars : p.toList with
    | nil => exact absurd (String.toList_eq_nil_iff.mp hchars) hp
    | cons c s =>
      refine ⟨c, List.mem_cons_self, ?_⟩
      rw [hunpadded.head c (by rw [hchars]; rfl)]
      exact Bool.false_ne_true
  have hempty : p.isEmpty = false := by simpa using hp
  unfold entry?
  dsimp only
  rw [Path.normalize_of_direct hdirect, hblank, hempty]
  rfl

/-- Entries that are the paths of a set, or blank, make the set. -/
theorem ofList_eq_of_entries {changes : ChangeSet} {entries : List String}
    (hself : ∀ p ∈ changes.paths, entry? p = some p)
    (hentries : ∀ e ∈ entries, e = "" ∨ e ∈ changes.paths)
    (hall : ∀ p ∈ changes.paths, p ∈ entries) : ofList entries = changes := by
  refine eq_of_mem_iff fun p => ?_
  rw [mem_paths_ofList]
  constructor
  · rintro ⟨e, he, hp⟩
    rcases hentries e he with rfl | hmem
    · rw [entry?_empty] at hp
      cases hp
    · rw [hself e hmem] at hp
      exact Option.some.inj hp ▸ hmem
  · exact fun hp => ⟨p, hall p hp, hself p hp⟩

end ChangeSet

/-! ## Lines -/

namespace Cli

/-- A line holds a text with nothing but blanks around it. A blank line holds the empty text. -/
def Holds (line : List Char) (text : String) : Prop :=
  ∃ before after, line = before ++ text.toList ++ after
    ∧ (∀ c ∈ before, Text.isBlank c = true) ∧ ∀ c ∈ after, Text.isBlank c = true

/-- A text lists paths: each of its lines holds one of them or is blank, and each of them is held by
some line. The order is free, and so is how often a path is held. -/
def Lists (text : String) (paths : List String) : Prop :=
  ∃ lines : List (List Char), lines ≠ [] ∧ text.toList = ['\n'].intercalate lines
    ∧ (∀ line ∈ lines, '\n' ∉ line ∧ (Holds line "" ∨ ∃ path ∈ paths, Holds line path))
    ∧ ∀ path ∈ paths, ∃ line ∈ lines, Holds line path

/-- Paths, each on a line of its own. -/
def onLines (paths : List String) : String := "\n".intercalate (paths ++ [""])

theorem lists_onLines {paths : List String} (h : ∀ p ∈ paths, Path.Plain p) :
    Lists (onLines paths) paths := by
  have hself : ∀ text : String, Holds text.toList text := fun text =>
    ⟨[], [], by rw [List.nil_append, List.append_nil], List.forall_mem_nil _,
      List.forall_mem_nil _⟩
  refine ⟨(paths ++ [""]).map String.toList, by simp, String.toList_intercalate, ?_, ?_⟩
  · intro line hline
    obtain ⟨text, htext, rfl⟩ := List.mem_map.mp hline
    rcases List.mem_append.mp htext with hp | hblank
    · exact ⟨(h text hp).oneLine, Or.inr ⟨text, hp, hself text⟩⟩
    · obtain rfl := List.mem_singleton.mp hblank
      exact ⟨List.not_mem_nil, Or.inl (hself "")⟩
  · exact fun p hp => ⟨p.toList, List.mem_map_of_mem (List.mem_append_left _ hp), hself p⟩

theorem trimChars_of_holds {line : List Char} {text : String} (h : Holds line text)
    (htext : Text.Unpadded text.toList) : String.ofList (Text.trimChars line) = text := by
  obtain ⟨before, after, rfl, hbefore, hafter⟩ := h
  rw [Text.trimChars_surrounded htext hbefore hafter, String.ofList_toList]

/-- **A change set is read back from a text that lists its paths.** -/
theorem ofList_listedPaths {changes : ChangeSet} {text : String} (h : Lists text changes.paths)
    (hself : ∀ p ∈ changes.paths, ChangeSet.entry? p = some p)
    (hunpadded : ∀ p ∈ changes.paths, Text.Unpadded p.toList) :
    ChangeSet.ofList (listedPaths text) = changes := by
  obtain ⟨lines, hne, htext, hlines, hall⟩ := h
  have hlisted : listedPaths text
      = lines.map fun line => String.ofList (Text.trimChars line) := by
    rw [listedPaths, htext, List.splitOn_intercalate '\n' (fun line hl => (hlines line hl).1) hne]
  rw [hlisted]
  refine ChangeSet.ofList_eq_of_entries hself (fun e he => ?_) fun p hp => ?_
  · obtain ⟨line, hline, rfl⟩ := List.mem_map.mp he
    rcases (hlines line hline).2 with hblank | ⟨p, hp, hholds⟩
    · exact Or.inl (trimChars_of_holds hblank ⟨by simp, by simp⟩)
    · exact Or.inr (trimChars_of_holds hholds (hunpadded p hp) ▸ hp)
  · obtain ⟨line, hline, hholds⟩ := hall p hp
    exact List.mem_map.mpr ⟨line, hline, trimChars_of_holds hholds (hunpadded p hp)⟩

end Cli

end PathLabels
