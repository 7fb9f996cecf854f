/-!
# JSON values

A number is kept as it is written, and the members of an object are kept in their order, one name
perhaps more than once.
-/

namespace PathLabels.Json

/-- A JSON value. -/
inductive Value where
  | null
  | bool (b : Bool)
  | number (digits : String)
  | string (s : String)
  | array (items : List Value)
  | object (members : List (String × Value))
  deriving Repr, Inhabited

namespace Value

def ofNat (n : Nat) : Value := .number (toString n)

/-- An array of strings. -/
def ofStrings (items : List String) : Value := .array (items.map .string)

/-- The text of a string value. -/
def string? : Value → Option String
  | .string s => some s
  | _ => none

/-- The strings of an array that holds nothing else. -/
def strings? : Value → Option (List String)
  | .array items => items.mapM string?
  | _ => none

theorem mapM_string?_map (items : List String) :
    (items.map Value.string).mapM string? = some items := by
  induction items with
  | nil => rfl
  | cons s items ih => simp [ih, string?]

@[simp] theorem strings?_ofStrings (items : List String) :
    (ofStrings items).strings? = some items :=
  mapM_string?_map items

end Value

end PathLabels.Json
