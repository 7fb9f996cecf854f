/-!
# Values of a configuration text

What a document holds once its syntax has been read. Tables keep the order in which their keys
first appear. A date or time keeps nothing but the fact that it is one, since no setting takes one.
-/

namespace PathLabels.Toml

/-- A value of a document. -/
inductive Value where
  | string (s : String)
  | integer (n : Int)
  | float (x : Float)
  | boolean (b : Bool)
  | datetime
  | array (items : List Value)
  | table (entries : List (String × Value))

/-- The members of a table, in the order of their first appearance. -/
abbrev Table := List (String × Value)

end PathLabels.Toml
