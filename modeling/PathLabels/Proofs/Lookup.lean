import PathLabels.OrderedMap

/-!
# What a map holds

`get?` is the view of an ordered map: `alter` changes it at one key and nowhere else, and the entries
are exactly what it finds.
-/

namespace PathLabels.OrderedMap

variable {α : Type}

/-- What a list of entries says about a key. -/
def lookup (es : List (String × α)) (key : String) : Option α :=
  (es.find? fun e => e.1 == key).map Prod.snd

theorem lookup_cons_self (key : String) (a : α) (es : List (String × α)) :
    lookup ((key, a) :: es) key = some a := by
  rw [lookup, List.find?_cons_of_pos (by simp)]
  rfl

theorem lookup_cons_of_ne {key : String} {e : String × α} (h : e.1 ≠ key)
    (es : List (String × α)) : lookup (e :: es) key = lookup es key := by
  rw [lookup, List.find?_cons_of_neg (by simpa using h)]
  rfl

theorem lookup_eq_none {key : String} {es : List (String × α)}
    (h : key ∉ es.map Prod.fst) : lookup es key = none := by
  rw [lookup, Option.map_eq_none_iff, List.find?_eq_none]
  intro e he hkey
  exact h (List.mem_map.mpr ⟨e, he, by simpa using hkey⟩)

theorem mem_of_lookup {key : String} {a : α} {es : List (String × α)}
    (h : lookup es key = some a) : (key, a) ∈ es := by
  rw [lookup, Option.map_eq_some_iff] at h
  obtain ⟨⟨k, b⟩, hfind, rfl⟩ := h
  have hk : k = key := by simpa using List.find?_some hfind
  exact hk ▸ List.mem_of_find?_eq_some hfind

theorem lookup_of_mem {key : String} {a : α} {es : List (String × α)}
    (hes : Ascending.Ascends (es.map Prod.fst)) (h : (key, a) ∈ es) :
    lookup es key = some a := by
  induction es with
  | nil => cases h
  | cons e es ih =>
    obtain ⟨hlt, hes'⟩ := List.pairwise_cons.mp hes
    rcases List.mem_cons.mp h with rfl | h'
    · exact lookup_cons_self key a es
    · have hne : e.1 ≠ key := by
        intro he
        have := hlt key (List.mem_map.mpr ⟨_, h', rfl⟩)
        rw [he] at this
        exact String.lt_irrefl _ this
      rw [lookup_cons_of_ne hne]
      exact ih hes' h'

/-- The entries of a map are what `get?` finds. -/
theorem mem_entries_iff {m : OrderedMap α} {key : String} {a : α} :
    (key, a) ∈ m.entries ↔ m.get? key = some a :=
  ⟨lookup_of_mem m.ascends, mem_of_lookup⟩

theorem lookup_alterEntries_self {key : String} (change : Option α → α)
    {es : List (String × α)} (hes : Ascending.Ascends (es.map Prod.fst)) :
    lookup (alterEntries key change es) key = some (change (lookup es key)) := by
  induction es with
  | nil => exact lookup_cons_self key _ []
  | cons e es ih =>
    obtain ⟨hlt, hes'⟩ := List.pairwise_cons.mp hes
    rw [alterEntries]
    by_cases h : key < e.1
    · -- the key comes before all others, so it is not among them
      have hnot : key ∉ (e :: es).map Prod.fst := by
        intro hmem
        rcases List.mem_cons.mp hmem with he | hmem
        · exact String.lt_irrefl _ (he ▸ h)
        · exact String.lt_irrefl _ (String.lt_trans h (hlt key hmem))
      rw [if_pos h, lookup_cons_self, lookup_eq_none hnot]
    · rw [if_neg h]
      by_cases he : key = e.1
      · rw [if_pos he, he, lookup_cons_self]
        exact congrArg (fun v => some (change v)) (lookup_cons_self e.1 e.2 es).symm
      · rw [if_neg he, lookup_cons_of_ne (Ne.symm he), lookup_cons_of_ne (Ne.symm he)]
        exact ih hes'

theorem lookup_alterEntries_of_ne {key key' : String} (hne : key' ≠ key)
    (change : Option α → α) (es : List (String × α)) :
    lookup (alterEntries key change es) key' = lookup es key' := by
  induction es with
  | nil => exact lookup_cons_of_ne (e := (key, change none)) (Ne.symm hne) []
  | cons e es ih =>
    rw [alterEntries]
    by_cases h : key < e.1
    · rw [if_pos h]
      exact lookup_cons_of_ne (e := (key, change none)) (Ne.symm hne) (e :: es)
    · rw [if_neg h]
      by_cases he : key = e.1
      · have hne' : e.1 ≠ key' := fun h' => hne (h'.symm.trans he.symm)
        rw [if_pos he, lookup_cons_of_ne (e := (e.1, change (some e.2))) hne',
          lookup_cons_of_ne hne']
      · rw [if_neg he]
        by_cases hk : e.1 = key'
        · subst hk
          rw [lookup_cons_self e.1 e.2, lookup_cons_self e.1 e.2]
        · rw [lookup_cons_of_ne hk, lookup_cons_of_ne hk, ih]

/-- **The view of a changed map**: the change at the key, and no change at any other. -/
theorem get?_alter (m : OrderedMap α) (key key' : String) (change : Option α → α) :
    (m.alter key change).get? key'
      = if key' = key then some (change (m.get? key)) else m.get? key' := by
  by_cases h : key' = key
  · rw [if_pos h, h]
    exact lookup_alterEntries_self change m.ascends
  · rw [if_neg h]
    exact lookup_alterEntries_of_ne h change m.entries

/-- Maps with the same view are equal. -/
theorem eq_of_get?_eq {m m' : OrderedMap α} (h : ∀ key, m.get? key = m'.get? key) : m = m' := by
  have hlt (m : OrderedMap α) : m.entries.Pairwise fun a b => a.1 < b.1 :=
    List.pairwise_map.mp m.ascends
  have hnodup (m : OrderedMap α) : m.entries.Nodup := by
    refine (hlt m).imp fun hab he => ?_
    rw [he] at hab
    exact String.lt_irrefl _ hab
  have hperm : m.entries.Perm m'.entries := by
    refine (List.perm_ext_iff_of_nodup (hnodup m) (hnodup m')).mpr fun (key, a) => ?_
    rw [mem_entries_iff, mem_entries_iff, h]
  have hentries : m.entries = m'.entries :=
    hperm.eq_of_pairwise (fun _ _ _ _ hab hba => absurd hba (String.lt_asymm hab)) (hlt m) (hlt m')
  cases m
  cases m'
  cases hentries
  rfl

end PathLabels.OrderedMap
