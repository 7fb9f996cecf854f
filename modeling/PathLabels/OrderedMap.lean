import PathLabels.Ascending

/-!
# Maps in the order of their keys

A map from texts keeps its entries in ascending order of their keys, so two maps with the same
entries are equal and every listing of a map is sorted. `alter` is the one way to change a map.
-/

namespace PathLabels

/-- A map from texts, in the order of its keys. -/
structure OrderedMap (α : Type) where
  entries : List (String × α)
  ascends : Ascending.Ascends (entries.map Prod.fst)

namespace OrderedMap

variable {α : Type}

def empty : OrderedMap α := ⟨[], Ascending.ascends_nil⟩

instance : Inhabited (OrderedMap α) := ⟨empty⟩

/-- The keys, in ascending order. -/
def keys (m : OrderedMap α) : List String := m.entries.map Prod.fst

def size (m : OrderedMap α) : Nat := m.entries.length

def isEmpty (m : OrderedMap α) : Bool := m.entries.isEmpty

/-- The value under a key. -/
def get? (m : OrderedMap α) (key : String) : Option α :=
  (m.entries.find? fun e => e.1 == key).map Prod.snd

/-- Changes the entry with a key, or puts one into its place. -/
def alterEntries (key : String) (change : Option α → α) :
    List (String × α) → List (String × α)
  | [] => [(key, change none)]
  | e :: es =>
    if key < e.1 then (key, change none) :: e :: es
    else if key = e.1 then (e.1, change (some e.2)) :: es
    else e :: alterEntries key change es

@[simp] theorem keys_alterEntries (key : String) (change : Option α → α)
    (es : List (String × α)) :
    (alterEntries key change es).map Prod.fst = Ascending.insert key (es.map Prod.fst) := by
  induction es with
  | nil => rfl
  | cons e es ih =>
    simp only [alterEntries, List.map_cons, Ascending.insert]
    split
    · rfl
    · split
      · rfl
      · simp [ih]

/-- Gives the key the value that `change` makes of its present one. -/
def alter (m : OrderedMap α) (key : String) (change : Option α → α) : OrderedMap α where
  entries := alterEntries key change m.entries
  ascends := by rw [keys_alterEntries]; exact Ascending.ascends_insert m.ascends

/-- The map with the given entries; of two with one key the later counts. -/
def ofList (entries : List (String × α)) : OrderedMap α :=
  entries.foldl (fun m e => m.alter e.1 fun _ => e.2) empty

end OrderedMap

end PathLabels
