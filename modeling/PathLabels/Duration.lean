/-!
# Durations

A length of time in nanoseconds, and its text: in the largest unit that leaves a whole part, with
as many decimals as are needed.
-/

namespace PathLabels

/-- A length of time. -/
structure Duration where
  nanos : Nat
  deriving Repr, DecidableEq, Inhabited

namespace Duration

def zero : Duration := ⟨0⟩

/-- The nanoseconds in a second. -/
def perSecond : Nat := 1000000000

/-- The nanoseconds in a millisecond. -/
def perMilli : Nat := 1000000

/-- The nanoseconds in a microsecond. -/
def perMicro : Nat := 1000

def ofSeconds (n : Nat) : Duration := ⟨n * perSecond⟩

def ofMillis (n : Nat) : Duration := ⟨n * perMilli⟩

/-- The whole milliseconds in a duration. -/
def millis (d : Duration) : Nat := d.nanos / perMilli

instance : Add Duration where
  add a b := ⟨a.nanos + b.nanos⟩

/-- `whole`, then `part` as that many decimals, less the zeros at the end. -/
def decimal (whole part decimals : Nat) : String :=
  let digits := Nat.toDigits 10 part
  let padded := List.replicate (decimals - digits.length) '0' ++ digits
  let shown := (padded.reverse.dropWhile (· == '0')).reverse
  toString whole ++ (if part = 0 then "" else "." ++ String.ofList shown)

/-- The text of a duration. -/
def text (d : Duration) : String :=
  let n := d.nanos
  if perSecond ≤ n then decimal (n / perSecond) (n % perSecond) 9 ++ "s"
  else if perMilli ≤ n then decimal (n / perMilli) (n % perMilli) 6 ++ "ms"
  else if perMicro ≤ n then decimal (n / perMicro) (n % perMicro) 3 ++ "µs"
  else decimal n 0 0 ++ "ns"

end Duration

end PathLabels
