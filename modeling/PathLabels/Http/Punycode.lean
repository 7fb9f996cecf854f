/-!
# Host labels in ASCII

A label of a host name that has characters outside ASCII is written with ASCII characters only: its
own ASCII characters, a hyphen, and then the other characters in ascending order, each as the
distance from the one before. Distances are numbers in base 36 whose digits end at a threshold, and
the thresholds move with the size of the distances.
-/

namespace PathLabels.Http.Punycode

/-- The digit of a value below 36: letters first, then decimal digits. -/
def digit (n : Nat) : Char :=
  if n < 26 then Char.ofNat ('a'.toNat + n) else Char.ofNat ('0'.toNat + (n - 26))

/-- The threshold of the digit at place `k`, where places are counted in steps of 36. -/
def threshold (k bias : Nat) : Nat := min 26 (max 1 (k - bias))

theorem one_le_threshold (k bias : Nat) : 1 ≤ threshold k bias := by
  simp only [threshold]
  omega

/-- The digits of a number from place `k` on. -/
def digits (bias : Nat) (k n : Nat) : List Char :=
  if n < threshold k bias then [digit n]
  else
    let rest := n - threshold k bias
    let base := 36 - threshold k bias
    digit (threshold k bias + rest % base) :: digits bias (k + 36) (rest / base)
  termination_by n
  decreasing_by
    have := one_le_threshold k bias
    have := Nat.div_le_self (n - threshold k bias) (36 - threshold k bias)
    omega

/-- Brings a distance into the range on which the bias depends. -/
def shrink (delta k : Nat) : Nat × Nat :=
  if h : 455 < delta then shrink (delta / 35) (k + 36) else (delta, k)
  termination_by delta

/-- The bias after a distance has been written as the `count`-th. -/
def adapt (delta count : Nat) (isFirst : Bool) : Nat :=
  let damped := if isFirst then delta / 700 else delta / 2
  let (rest, k) := shrink (damped + damped / count) 0
  k + 36 * rest / (rest + 38)

/-- How far a label has been written. -/
structure State where
  output : List Char
  delta : Nat := 0
  bias : Nat := 72
  /-- How many characters have been written. -/
  handled : Nat

/-- Goes over one character of the label while the characters with code `m` are being written. -/
def pass (basicCount m : Nat) (s : State) (c : Char) : State :=
  if c.toNat < m then { s with delta := s.delta + 1 }
  else if c.toNat = m then
    { output := s.output ++ digits s.bias 36 s.delta, delta := 0,
      bias := adapt s.delta (s.handled + 1) (s.handled == basicCount), handled := s.handled + 1 }
  else s

/-- The ASCII form of a label. -/
def encode (label : List Char) : List Char :=
  let basic := label.filter fun c => c.toNat < 0x80
  let codes := ((label.map Char.toNat).filter (0x80 ≤ ·)).mergeSort.eraseDups
  let start : State :=
    { output := basic ++ (if basic.isEmpty then [] else ['-']), handled := basic.length }
  let step (acc : State × Nat) (m : Nat) : State × Nat :=
    let s := { acc.1 with delta := acc.1.delta + (m - acc.2) * (acc.1.handled + 1) }
    let s := label.foldl (pass basic.length m) s
    ({ s with delta := s.delta + 1 }, m + 1)
  (codes.foldl step (start, 0x80)).1.output

end PathLabels.Http.Punycode
