/-!
# Integers in decimal

Readers for integers as they stand in command lines and message headers: an optional sign, then
digits, and nothing else. A reader has a range, and a number outside it is not read.
-/

namespace PathLabels.Text

/-- The value of a digit. -/
def digitValue (c : Char) : Nat := c.toNat - '0'.toNat

/-- The number that a non-empty sequence of decimal digits writes. -/
def digits? (s : List Char) : Option Nat :=
  if s.isEmpty || !s.all Char.isDigit then none
  else some (s.foldl (fun n c => n * 10 + digitValue c) 0)

/-- A natural number up to `max`; a plus sign may lead it. -/
def natural? (max : Nat) (s : String) : Option Nat :=
  let number := match s.toList with
    | '+' :: rest => digits? rest
    | chars => digits? chars
  number.filter (· ≤ max)

/-- An integer from `min` to `max`; a plus or a minus sign may lead it. -/
def integer? (min max : Int) (s : String) : Option Int :=
  let number : Option Int := match s.toList with
    | '+' :: rest => (digits? rest).map Int.ofNat
    | '-' :: rest => (digits? rest).map fun n => -(n : Int)
    | chars => (digits? chars).map Int.ofNat
  number.filter fun n => min ≤ n && n ≤ max

/-- A natural number of 64 bits. -/
def uint64? (s : String) : Option Nat := natural? 0xFFFFFFFFFFFFFFFF s

/-- An integer of 32 bits. -/
def int32? (s : String) : Option Int := integer? (-0x80000000) 0x7FFFFFFF s

/-- Whether an integer fits into 64 bits. -/
def isInt64 (n : Int) : Bool := -0x8000000000000000 ≤ n && n ≤ 0x7FFFFFFFFFFFFFFF

/-- An integer of 64 bits. -/
def int64? (s : String) : Option Int := integer? (-0x8000000000000000) 0x7FFFFFFFFFFFFFFF s

end PathLabels.Text
