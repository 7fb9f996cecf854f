import PathLabels.Http.Percent
import PathLabels.Http.Punycode

/-!
# Hosts

The host of an address is a name, a version 4 address or a version 6 address. Each has one normal
text: names are in lower case and in ASCII, version 4 addresses are four decimal numbers, and in
version 6 addresses the longest run of zeros is left out.
-/

namespace PathLabels.Http.Host

/-! ## Numbers -/

/-- The value of a digit in a base up to sixteen. -/
def digitIn? (base : Nat) (c : Char) : Option Nat :=
  let value :=
    if c.isDigit then some (c.toNat - '0'.toNat)
    else if 'a' ≤ c ∧ c ≤ 'f' then some (c.toNat - 'a'.toNat + 10)
    else if 'A' ≤ c ∧ c ≤ 'F' then some (c.toNat - 'A'.toNat + 10)
    else none
  value.filter (· < base)

/-- The number that digits write in a base; no digits write zero. -/
def numberIn? (base : Nat) (s : List Char) : Option Nat :=
  s.foldlM (fun n c => (digitIn? base c).map fun d => n * base + d) 0

/-- A part of a version 4 address: hexadecimal after `0x`, octal after `0`, else decimal. -/
def part? : List Char → Option Nat
  | [] => none
  | ['0'] => some 0
  | '0' :: 'x' :: s => numberIn? 16 s
  | '0' :: 'X' :: s => numberIn? 16 s
  | '0' :: s => numberIn? 8 s
  | s => numberIn? 10 s

/-! ## Version 4 -/

/-- The parts of a name, less an empty one at its end. -/
def dottedParts (s : List Char) : List (List Char) :=
  let parts := s.splitOn '.'
  if parts.getLast? = some [] ∧ 1 < parts.length then parts.dropLast else parts

/-- Whether a name ends in a number, which makes it a version 4 address or nothing. -/
def endsInNumber (s : List Char) : Bool :=
  match (dottedParts s).getLast? with
  | none => false
  | some last => (!last.isEmpty && last.all Char.isDigit) || (part? last).isSome

/-- Four numbers below 256 with points between them. -/
def text4 (n : Nat) : List Char :=
  let byte (k : Nat) : List Char := (toString (n / Nat.pow 256 k % 256)).toList
  byte 3 ++ '.' :: byte 2 ++ '.' :: byte 1 ++ '.' :: byte 0

/-- The number of a version 4 address. All parts but the last are bytes, and the last fills what
they leave. -/
def address4? (s : List Char) : Option Nat := do
  let numbers ← (dottedParts s).mapM part?
  let last ← numbers.getLast?
  let bytes := numbers.dropLast
  let room := Nat.pow 256 (5 - numbers.length)
  if 4 < numbers.length ∨ bytes.any (255 < ·) ∨ room ≤ last then none
  else some (bytes.foldl (fun n b => n * 256 + b) 0 * room + last)

/-! ## Version 6 -/

/-- A piece of a version 6 address: one to four hexadecimal digits. -/
def piece? (s : List Char) : Option Nat :=
  if s.isEmpty || 4 < s.length then none else numberIn? 16 s

/-- A byte in decimal without leading zeros. -/
def byte? (s : List Char) : Option Nat :=
  if s.isEmpty || (s.head? = some '0' && s.length ≠ 1) then none
  else (numberIn? 10 s).filter (· < 256)

/-- The last pieces of an address, which may be four bytes. -/
def lastPieces? (s : List Char) : Option (List Nat) :=
  match (s.splitOn '.').mapM byte? with
  | some [a, b, c, d] => some [a * 256 + b, c * 256 + d]
  | _ => (piece? s).map fun n => [n]

/-- The pieces between colons. -/
def piecesOf? (s : List Char) : Option (List Nat) :=
  if s.isEmpty then some []
  else do
    let parts := s.splitOn ':'
    let front ← parts.dropLast.mapM piece?
    return front ++ (← lastPieces? (parts.getLastD []))

/-- Cuts a character sequence at the first double colon. -/
def cutAtGap : List Char → Option (List Char × List Char)
  | ':' :: ':' :: s => some ([], s)
  | c :: s => (cutAtGap s).map fun (front, back) => (c :: front, back)
  | [] => none

/-- The eight pieces of a version 6 address. -/
def address6? (s : List Char) : Option (List Nat) :=
  match cutAtGap s with
  | none => (piecesOf? s).filter fun pieces => pieces.length == 8
  | some (front, back) => do
    if front.contains '.' then none
    let front ← piecesOf? front
    let back ← piecesOf? back
    let given := front.length + back.length
    if given < 8 then some (front ++ List.replicate (8 - given) 0 ++ back) else none

/-- The length of the run of zeros that a list begins with. -/
def zeroRun (pieces : List Nat) : Nat := (pieces.takeWhile (· == 0)).length

/-- Where the longest run of zeros begins and how long it is; the first one if there are several. -/
def longestRun (pieces : List Nat) : Nat × Nat :=
  (List.range pieces.length).foldl
    (fun best i =>
      let n := zeroRun (pieces.drop i)
      if best.2 < n then (i, n) else best) (0, 0)

/-- Pieces with colons between them. -/
def colonText (pieces : List Nat) : List Char :=
  [':'].intercalate (pieces.map fun n => Nat.toDigits 16 n)

/-- The text of a version 6 address. -/
def text6 (pieces : List Nat) : List Char :=
  let (start, length) := longestRun pieces
  let inner :=
    if length < 2 then colonText pieces
    else colonText (pieces.take start) ++ [':', ':'] ++ colonText (pieces.drop (start + length))
  '[' :: (inner ++ [']'])

/-! ## Names -/

/-- Whether a character may stand in no host. -/
def isForbidden (c : Char) : Bool :=
  "\x00\t\n\r #/:<>?@[\\]^|".toList.contains c

/-- Whether a character may stand in no host name. -/
def isForbiddenInName (c : Char) : Bool :=
  isForbidden c || c.toNat < 0x20 || c == '%' || c == '\x7f'

/-- A label of a host name in ASCII and in lower case. -/
def asciiLabel (label : List Char) : List Char :=
  let lower := label.map Char.toLower
  if lower.all fun c => c.toNat < 0x80 then lower else "xn--".toList ++ Punycode.encode lower

/-- The normal text of a host name or a version 4 address. -/
def name? (s : List Char) : Option (List Char) :=
  let name := ['.'].intercalate (((Percent.decode s).splitOn '.').map asciiLabel)
  if name.isEmpty || name.any isForbiddenInName then none
  else if endsInNumber name then (address4? name).map text4
  else some name

/-- A version 6 address in brackets. -/
def bracketed? (s : List Char) : Option (List Char) :=
  match s with
  | '[' :: inner =>
    if inner.getLast? = some ']' then (address6? inner.dropLast).map text6 else none
  | _ => none

/-- The normal text of a host in an address with a well-known scheme. -/
def special? (s : List Char) : Option (List Char) :=
  if s.head? = some '[' then bracketed? s else name? s

/-- The normal text of a host in an address with another scheme, which may be empty. -/
def plain? (s : List Char) : Option (List Char) :=
  if s.head? = some '[' then bracketed? s
  else if s.any isForbidden then none
  else some (Percent.encode Percent.isControl s)

end PathLabels.Http.Host
