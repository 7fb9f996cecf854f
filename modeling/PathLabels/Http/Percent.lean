import PathLabels.Text.Utf8

/-!
# Percent-encoding

Characters that may not stand in a part of an address are written as the bytes of their UTF-8 form,
each as a percent sign and two hexadecimal digits. Which characters these are depends on the part.
A percent sign itself is left alone, so an address that is encoded already stays as it is.
-/

namespace PathLabels.Http.Percent

/-! ## Character sets -/

/-- Control characters and everything outside ASCII. -/
def isControl (c : Char) : Bool := c.toNat < 0x20 || 0x7F ≤ c.toNat

/-- What is encoded in a fragment. -/
def inFragment (c : Char) : Bool :=
  isControl c || c == ' ' || c == '"' || c == '<' || c == '>' || c.toNat == 0x60

/-- What is encoded in a query. -/
def inQuery (c : Char) : Bool :=
  isControl c || c == ' ' || c == '"' || c == '#' || c == '<' || c == '>'

/-- What is encoded in the query of an address with a well-known scheme. -/
def inSpecialQuery (c : Char) : Bool := inQuery c || c == '\''

/-- What is encoded in a path segment. -/
def inPath (c : Char) : Bool :=
  inFragment c || c == '#' || c == '?' || c == '^' || c == '\x7b' || c == '\x7d'

/-! ## Encoding -/

/-- The upper-case hexadecimal digit of a number below sixteen. -/
def digit (n : Nat) : Char :=
  if n < 10 then Char.ofNat ('0'.toNat + n) else Char.ofNat ('A'.toNat + (n - 10))

/-- A byte as a percent sign and two digits. -/
def encodeByte (b : UInt8) : List Char := ['%', digit (b.toNat / 16), digit (b.toNat % 16)]

/-- A character sequence in which each character of the set is encoded. -/
def encode (set : Char → Bool) (s : List Char) : List Char :=
  s.flatMap fun c => if set c then (Text.bytesOf [c]).flatMap encodeByte else [c]

/-! ## Decoding -/

/-- The value of a hexadecimal digit of either case. -/
def hexValue? (b : UInt8) : Option Nat :=
  let n := b.toNat
  if 0x30 ≤ n ∧ n ≤ 0x39 then some (n - 0x30)
  else if 0x41 ≤ n ∧ n ≤ 0x46 then some (n - 0x41 + 10)
  else if 0x61 ≤ n ∧ n ≤ 0x66 then some (n - 0x61 + 10)
  else none

/-- The bytes that a byte sequence stands for; a percent sign without two digits stands for
itself. -/
def decodeBytes : List UInt8 → List UInt8
  | 0x25 :: a :: b :: rest =>
    match hexValue? a, hexValue? b with
    | some x, some y => UInt8.ofNat (x * 16 + y) :: decodeBytes rest
    | _, _ => 0x25 :: decodeBytes (a :: b :: rest)
  | b :: rest => b :: decodeBytes rest
  | [] => []

/-- The text that a part of an address stands for. -/
def decode (s : List Char) : List Char := (Text.decodeLossy (decodeBytes (Text.bytesOf s))).toList

end PathLabels.Http.Percent
