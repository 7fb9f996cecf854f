import PathLabels.Path
import PathLabels.Proofs.Compiling

/-!
# Components of paths

A path is cut at its slashes, and what counts are the pieces that are not empty. Cutting is undone
by joining: texts without slashes come back as they were, and so do components that are joined to a
path. A pattern that names components has them from its text in the same way.
-/

namespace PathLabels

theorem not_mem_of_mem_splitOn {x : Char} {s piece : List Char} (h : piece ∈ s.splitOn x) :
    x ∉ piece := by
  induction s generalizing piece with
  | nil =>
    rw [List.mem_singleton.mp h]
    exact List.not_mem_nil
  | cons c s ih =>
    rw [List.splitOn_cons_eq_if_modifyHead] at h
    split at h
    · rcases List.mem_cons.mp h with rfl | h
      · exact List.not_mem_nil
      · exact ih h
    · rename_i hc
      cases hsplit : s.splitOn x with
      | nil => exact absurd hsplit (List.splitOn_ne_nil _ _)
      | cons first pieces =>
        rw [hsplit] at h ih
        rcases List.mem_cons.mp h with rfl | h
        · -- the first piece has become longer by a character that is not the separator
          rw [List.mem_cons, not_or]
          exact ⟨fun hx => hc (beq_iff_eq.mpr hx.symm), ih List.mem_cons_self⟩
        · exact ih (List.mem_cons_of_mem _ h)

/-- Pieces that are ended one by one are what splitting gives back, and nothing is left behind the
last end. -/
theorem splitOn_ended {α : Type} [BEq α] [LawfulBEq α] (x : α) {pieces : List (List α)}
    (h : ∀ piece ∈ pieces, x ∉ piece) :
    (pieces.flatMap fun piece => piece ++ [x]).splitOn x = pieces ++ [[]] := by
  induction pieces with
  | nil => rfl
  | cons piece pieces ih =>
    obtain ⟨hpiece, hpieces⟩ := List.forall_mem_cons.mp h
    have hplain : ∀ y ∈ piece, (y == x) = false := by
      intro y hy
      exact beq_eq_false_iff_ne.mpr fun heq => hpiece (heq ▸ hy)
    rw [List.flatMap_cons, List.append_assoc, List.singleton_append, List.splitOn,
      List.splitOnP_append_cons_of_forall_mem hplain x (beq_self_eq_true x), ← List.splitOn,
      ih hpieces, List.cons_append]

namespace Path

/-- A text that can be a component: it is not empty and has no slash. -/
structure IsComponent (c : String) : Prop where
  nonempty : c ≠ ""
  noSlash : '/' ∉ c.toList

/-- A path is cut into parts: texts without slashes, with a slash between each and the next. -/
structure SplitsInto (path : String) (parts : List String) : Prop where
  nonempty : parts ≠ []
  joined : join parts = path
  noSlash : ∀ part ∈ parts, '/' ∉ part.toList

variable {path : String} {parts names : List String}

theorem isComponent_of_mem_components {s : List Char} {c : String} (h : c ∈ components s) :
    IsComponent c := by
  obtain ⟨piece, hpiece, rfl⟩ := List.mem_map.mp h
  obtain ⟨hmem, hkept⟩ := List.mem_filter.mp hpiece
  refine ⟨fun hempty => ?_, ?_⟩
  · rw [String.ofList_eq_empty_iff.mp hempty] at hkept
    cases hkept
  · rw [String.toList_ofList]
    exact not_mem_of_mem_splitOn hmem

/-- Every path is cut into parts. -/
theorem exists_splitsInto (path : String) : ∃ parts, SplitsInto path parts := by
  refine ⟨(path.toList.splitOn '/').map String.ofList, ?_, ?_, fun part hpart => ?_⟩
  · rw [Ne, List.map_eq_nil_iff]
    exact List.splitOn_ne_nil _ _
  · refine String.toList_inj.mp ?_
    rw [join, String.toList_intercalate, List.map_map]
    have hself : String.toList ∘ String.ofList = id := funext fun _ => String.toList_ofList
    rw [hself, List.map_id]
    exact List.intercalate_splitOn '/'
  · obtain ⟨piece, hpiece, rfl⟩ := List.mem_map.mp hpart
    rw [String.toList_ofList]
    exact not_mem_of_mem_splitOn hpiece

theorem SplitsInto.splitOn_eq (h : SplitsInto path parts) :
    path.toList.splitOn '/' = parts.map String.toList := by
  rw [← h.joined, join, String.toList_intercalate]
  refine List.splitOn_intercalate '/' (fun cs hcs => ?_) ?_
  · obtain ⟨part, hpart, rfl⟩ := List.mem_map.mp hcs
    exact h.noSlash part hpart
  · rw [Ne, List.map_eq_nil_iff]
    exact h.nonempty

/-- There is one way to cut a path. -/
theorem SplitsInto.unique (h : SplitsInto path parts) (h' : SplitsInto path names) :
    parts = names := by
  have hinjective : Function.Injective String.toList := fun _ _ heq => String.toList_inj.mp heq
  exact hinjective.list_map (h.splitOn_eq.symm.trans h'.splitOn_eq)

/-- The components of a path are its parts without the empty ones. -/
theorem SplitsInto.components_eq (h : SplitsInto path parts) :
    components path.toList = parts.filter (· ≠ "") := by
  rw [components, h.splitOn_eq, List.filter_map, List.map_map]
  have hself : String.ofList ∘ String.toList = id := funext fun _ => String.ofList_toList
  rw [hself, List.map_id]
  refine List.filter_congr fun part _ => ?_
  rw [Bool.eq_iff_iff]
  simp

/-- **Components are those of the path that they make.** -/
theorem components_join (h : ∀ name ∈ names, IsComponent name) :
    components (join names).toList = names := by
  by_cases hnil : names = []
  · subst hnil
    rfl
  have hsplits : SplitsInto (join names) names :=
    ⟨hnil, rfl, fun name hname => (h name hname).noSlash⟩
  rw [hsplits.components_eq]
  exact List.filter_eq_self.mpr fun name hname => by simpa using (h name hname).nonempty

end Path

namespace PathPattern

/-- A pattern that names components has those of its text, and at least one. -/
theorem components_of_parse {text raw : String} {components : List String}
    (h : parse text = .ok (.literal raw components)) :
    components = Path.components (Path.normalizeChars (Text.trimChars text.toList))
      ∧ components ≠ [] := by
  unfold parse at h
  dsimp only at h
  split at h
  · cases h
  split at h
  · unfold ofGlobText at h
    obtain ⟨exact, -, h⟩ := bind_eq_ok_iff.mp h
    obtain ⟨below, -, h⟩ := bind_eq_ok_iff.mp h
    split at h
    · cases h
    · cases h
  split at h
  · cases h
  · rename_i hempty
    cases h
    exact ⟨rfl, by simpa using hempty⟩

variable {raw raw' : String} {components upper : List String}

theorem isMatch_literal_iff {path : String} :
    (literal raw components).isMatch path = true
      ↔ components <+: Path.components (Path.normalizeChars path.toList) := by
  unfold isMatch
  dsimp only
  rw [List.isPrefixOf_iff_prefix]

/-- A component is not matched by its beginning. -/
example : (literal "Mathlib/Topology" ["Mathlib", "Topology"]).isMatch
    "Mathlib/TopologyExtra.lean" = false := by
  decide +kernel

/-- A pattern below another one is more specific: the number of components counts first. -/
theorem specificity_literal_lt (hbegins : upper <+: components) (hne : upper ≠ components) :
    (literal raw upper).specificity < (literal raw' components).specificity := by
  refine Or.inl (Nat.lt_of_le_of_ne hbegins.length_le fun hlen => hne ?_)
  exact hbegins.eq_of_length hlen

end PathPattern

end PathLabels
