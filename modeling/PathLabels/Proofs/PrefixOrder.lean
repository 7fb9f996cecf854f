import PathLabels.Proofs.Components

/-!
# Path patterns are ordered as their components are

A pattern that names components matches the paths that begin with them, so one pattern matches all
that another one matches exactly if its components are the first ones of the other. To see it from
the matches alone a path is needed that has the components of the other pattern and no more; the
path that they make has them, but a component `.` in front would be taken off. With `./` before it
the path keeps them all.
-/

namespace PathLabels.PathPattern

variable {raw raw' : String} {components other : List String}

/-- What is taken off is the `./` in front, so a component `.` behind it stays. -/
theorem isMatch_dot_join (h : ∀ name ∈ components, Path.IsComponent name) :
    (literal raw other).isMatch ("./" ++ Path.join components) = true ↔ other <+: components := by
  have hnormal : Path.normalizeChars ("./" ++ Path.join components).toList
      = (Path.join components).toList := by
    rw [String.toList_append]
    rfl
  rw [isMatch_literal_iff, hnormal, Path.components_join h]

/-- **More components make fewer matches**, and the matches tell. -/
theorem forall_isMatch_iff (h : ∀ name ∈ components, Path.IsComponent name) :
    (∀ path, (literal raw components).isMatch path = true →
        (literal raw' other).isMatch path = true)
      ↔ other <+: components := by
  constructor
  · intro hall
    exact (isMatch_dot_join h).mp (hall _ ((isMatch_dot_join h).mpr List.prefix_rfl))
  · intro hbegins path hmatch
    exact isMatch_literal_iff.mpr (hbegins.trans (isMatch_literal_iff.mp hmatch))

theorem specificity_literal_eq_iff (hbegins : other <+: components) :
    (literal raw' other).specificity = (literal raw components).specificity
      ↔ other = components := by
  constructor
  · intro heq
    by_contra hne
    have hlt : (literal raw' other).specificity < (literal raw components).specificity :=
      specificity_literal_lt hbegins hne
    exact Specificity.not_lt_of_le (heq ▸ Specificity.le_refl _) hlt
  · intro heq
    rw [heq]
    rfl

theorem specificity_literal_le (hbegins : other <+: components) :
    (literal raw' other).specificity ≤ (literal raw components).specificity := by
  by_cases heq : other = components
  · rw [heq]
    exact Specificity.le_refl _
  · exact Specificity.le_of_lt (specificity_literal_lt hbegins heq)

/--
**Path patterns are ordered as their components are.**

Let a pattern that names components be read from a text. Any path is cut into parts in one way once
a leading `./` is taken off, and the pattern matches it exactly if the components are the first ones
of the parts that are not empty.

Let a second such pattern be read. It matches every path that the first one matches exactly if its
components are the first ones of the other; and if they are, it is at most as specific, and just as
specific only if the components are the same.
-/
theorem literal_patterns_embed {text raw : String} {components : List String}
    (h : parse text = .ok (.literal raw components)) :
    (∀ path, ∃ parts, (∀ parts', Path.SplitsInto (Path.normalize path) parts' ↔ parts' = parts)
        ∧ ((literal raw components).isMatch path = true
            ↔ components <+: parts.filter (· ≠ "")))
      ∧ ∀ text' raw' other, parse text' = .ok (.literal raw' other) →
          ((∀ path, (literal raw components).isMatch path = true →
              (literal raw' other).isMatch path = true) ↔ other <+: components)
          ∧ (other <+: components →
              (literal raw' other).specificity ≤ (literal raw components).specificity
              ∧ ((literal raw' other).specificity = (literal raw components).specificity
                  ↔ other = components)) := by
  have hcomponents : ∀ name ∈ components, Path.IsComponent name := by
    rw [(components_of_parse h).1]
    exact fun _ => Path.isComponent_of_mem_components
  refine ⟨fun path => ?_, fun text' raw' other _ => ⟨forall_isMatch_iff hcomponents, fun hbegins =>
    ⟨specificity_literal_le hbegins, specificity_literal_eq_iff hbegins⟩⟩⟩
  obtain ⟨parts, hparts⟩ := Path.exists_splitsInto (Path.normalize path)
  refine ⟨parts, fun parts' => ⟨fun h' => ?_, fun heq => heq ▸ hparts⟩, ?_⟩
  · exact h'.unique hparts
  · rw [isMatch_literal_iff, ← Path.toList_normalize, hparts.components_eq]

/-- A component `.` that stands behind the `./` that is taken off, and slashes that do not count. -/
theorem literal_patterns_embed_dot :
    let lower := literal " ././x//y/ " [".", "x", "y"]
    let upper := literal "./." ["."]
    parse " ././x//y/ " = .ok lower ∧ parse "./." = .ok upper
      ∧ (∀ path, lower.isMatch path = true → upper.isMatch path = true)
      ∧ ¬(∀ path, upper.isMatch path = true → lower.isMatch path = true)
      ∧ upper.specificity ≤ lower.specificity ∧ upper.specificity ≠ lower.specificity := by
  intro lower upper
  have hlower : parse " ././x//y/ " = .ok lower := rfl
  have hupper : parse "./." = .ok upper := rfl
  obtain ⟨hbelow, hspecificity⟩ := (literal_patterns_embed hlower).2 _ _ _ hupper
  have habove := ((literal_patterns_embed hupper).2 _ _ _ hlower).1
  obtain ⟨hle, heq⟩ := hspecificity (by decide)
  exact ⟨hlower, hupper, hbelow.mpr (by decide), fun hall => absurd (habove.mp hall) (by decide),
    hle, fun hsame => absurd (heq.mp hsame) (by decide)⟩

end PathLabels.PathPattern
