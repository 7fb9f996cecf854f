/-!
# Shortest decimals

The shortest decimal of a finite binary fraction is the one with the fewest digits among those
that read back as that fraction, and the nearest to it among these. A positive double is
`m * 2 ^ q`; the decimals that read back as it are those between the midpoints to its two
neighbours, midpoints included if `m` is even.

All arithmetic is on natural numbers: a decimal and the bounds are compared as integers after
multiplying by common powers of two and ten.
-/

namespace PathLabels.Decimal

/-- A positive binary fraction `mantissa * 2 ^ exponent`. -/
structure Binary where
  mantissa : Nat
  exponent : Int
  /-- Whether the gap to the next smaller fraction is half the gap to the next greater one. -/
  isLowest : Bool
  deriving Repr

/-- A positive decimal number `digits * 10 ^ exponent`. -/
structure Numeral where
  digits : Nat
  exponent : Int
  deriving Repr, DecidableEq

/-- The numerator and denominator of `n * 2 ^ a * 10 ^ b`. -/
def ratio (n : Nat) (a b : Int) : Nat × Nat :=
  (n * Nat.pow 2 a.toNat * Nat.pow 10 b.toNat, Nat.pow 2 (-a).toNat * Nat.pow 10 (-b).toNat)

/-- Whether `x < y` for fractions given as numerator and denominator. -/
def ratioLt (x y : Nat × Nat) : Bool := x.1 * y.2 < y.1 * x.2

/-- Whether a decimal reads back as a fraction. -/
def readsBackAs (d : Numeral) (b : Binary) : Bool :=
  let value := ratio (4 * d.digits) 0 d.exponent
  let low := ratio (4 * b.mantissa - if b.isLowest then 1 else 2) b.exponent 0
  let high := ratio (4 * b.mantissa + 2) b.exponent 0
  if b.mantissa % 2 = 0 then !ratioLt value low && !ratioLt high value
  else ratioLt low value && ratioLt value high

/-- Twice the distance of a decimal from a fraction, as a fraction. -/
def distance (d : Numeral) (b : Binary) : Nat × Nat :=
  let x := ratio d.digits 0 d.exponent
  let y := ratio b.mantissa b.exponent 0
  let (p, q) := (x.1 * y.2, y.1 * x.2)
  (max p q - min p q, x.2 * y.2)

/-- The decimal with last place `10 ^ place` that reads back as `b` and is nearest to it. -/
def onGrid? (b : Binary) (place : Int) : Option Numeral :=
  let (n, d) := ratio b.mantissa b.exponent (-place)
  let below : Numeral := ⟨n / d, place⟩
  let above : Numeral := ⟨n / d + 1, place⟩
  match below.digits != 0 && readsBackAs below b, readsBackAs above b with
  | true, true => some (if ratioLt (distance above b) (distance below b) then above else below)
  | true, false => some below
  | false, true => some above
  | false, false => none

/-- The number of digits before the point of a fraction that is at least one; an estimate from
its size in bits, never too small. -/
def placesAbove (b : Binary) : Int :=
  let bits : Int := b.mantissa.log2 + b.exponent + 1
  bits * 30103 / 100000 + 2

/-- The first hit on grids that get finer, at most `fuel` of them. -/
def firstHit (b : Binary) (place : Int) : Nat → Numeral
  | 0 => ⟨b.mantissa, 0⟩
  | fuel + 1 =>
    match onGrid? b place with
    | some d => d
    | none => firstHit b (place - 1) fuel

/-- The shortest decimal of a fraction; twenty-two places are more than a double ever needs. -/
def shortest (b : Binary) : Numeral := firstHit b (placesAbove b) 22

/-- A decimal in positional notation, without an exponent and with no point it does not need. -/
def Numeral.positional (d : Numeral) : String :=
  let digits := Nat.toDigits 10 d.digits
  if 0 ≤ d.exponent then String.ofList (digits ++ List.replicate d.exponent.toNat '0')
  else
    let fraction := (-d.exponent).toNat
    let padded := List.replicate (fraction + 1 - digits.length) '0' ++ digits
    let whole := padded.length - fraction
    String.ofList (padded.take whole ++ '.' :: padded.drop whole)

/-- The weight of the leading bit of a normal double, which is not stored. -/
def hiddenBit : Nat := Nat.pow 2 52

/-- The weight of the bit that holds the sign of a double. -/
def signBit : Nat := Nat.pow 2 63

/-- The fraction that the bits of a positive finite double stand for. -/
def Binary.ofBits (bits : UInt64) : Binary :=
  let fraction : Nat := bits.toNat % hiddenBit
  let field : Nat := bits.toNat / hiddenBit % 2048
  if field = 0 then ⟨fraction, -1074, false⟩
  else ⟨hiddenBit + fraction, Int.ofNat field - 1075, fraction = 0 && 1 < field⟩

/-- A number in the shortest positional notation, with `.0` after a whole number. -/
def floatText (x : Float) : String :=
  let bits := x.toBits
  let sign := if signBit ≤ bits.toNat then "-" else ""
  let magnitude := bits.toNat % signBit
  let infinity := 2047 * hiddenBit
  if magnitude = 0 then sign ++ "0.0"
  else if magnitude = infinity then sign ++ "inf"
  else if infinity < magnitude then "NaN"
  else
    let d := shortest (Binary.ofBits magnitude.toUInt64)
    sign ++ d.positional ++ (if 0 ≤ d.exponent then ".0" else "")

end PathLabels.Decimal
