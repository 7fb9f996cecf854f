import PathLabels.Json.Value
import PathLabels.Text.Reader

/-!
# Reading JSON

A text is read as one value with blanks around its parts. Arrays and objects stand at most 127 deep
in one another, which keeps a reader from being led down without end. A string may not hold a
control character as such, and half of a surrogate pair is no character.
-/

namespace PathLabels.Json

open Text (Reader)
open Text.Reader

/-! ## Characters -/

def isSpace (c : Char) : Bool := c == ' ' || c == '\t' || c == '\n' || c == '\r'

def spaces : Reader Unit := discard (takeWhile isSpace)

/-- The value of a hexadecimal digit. -/
def hexValue? (c : Char) : Option Nat :=
  if c.isDigit then some (c.toNat - '0'.toNat)
  else if 'a' ≤ c ∧ c ≤ 'f' then some (c.toNat - 'a'.toNat + 10)
  else if 'A' ≤ c ∧ c ≤ 'F' then some (c.toNat - 'A'.toNat + 10)
  else none

/-- One hexadecimal digit. -/
def hexDigit : Reader Nat
  | [] => none
  | c :: s => (hexValue? c).map fun n => (n, s)

/-- Four hexadecimal digits. -/
def hexQuad : Reader Nat := do
  let a ← hexDigit
  let b ← hexDigit
  let c ← hexDigit
  let d ← hexDigit
  return ((a * 16 + b) * 16 + c) * 16 + d

/-- The character after `\u`: four digits, or twice four digits for a pair of surrogates. -/
def numbered : Reader Char := do
  let high ← hexQuad
  if 0xD800 ≤ high ∧ high < 0xDC00 then
    word ['\\', 'u']
    let low ← hexQuad
    if 0xDC00 ≤ low ∧ low < 0xE000 then
      return Char.ofNat (0x10000 + (high - 0xD800) * 0x400 + (low - 0xDC00))
    else failure
  else if 0xDC00 ≤ high ∧ high < 0xE000 then failure
  else return Char.ofNat high

/-- What the characters after a backslash stand for. -/
def afterBackslash : Reader Char := do
  match ← satisfy fun _ => true with
  | '"' => return '"'
  | '\\' => return '\\'
  | '/' => return '/'
  | 'b' => return '\x08'
  | 'f' => return '\x0c'
  | 'n' => return '\n'
  | 'r' => return '\r'
  | 't' => return '\t'
  | 'u' => numbered
  | _ => failure

/-- Whether a character stands for itself in a string. -/
def isPlain (c : Char) : Bool := 0x20 ≤ c.toNat && c != '"' && c != '\\'

/-- One character of a string. -/
def stringChar : Reader Char
  | [] => none
  | '\\' :: s => afterBackslash s
  | c :: s => if isPlain c then some (c, s) else none

/-- A string in its quotes. -/
def stringBody : Reader String := do
  char '"'
  let chars ← many stringChar
  char '"'
  return String.ofList chars

/-! ## Values -/

/-- The whole part of a number: a zero, or digits of which the first is no zero. -/
def wholePart : Reader (List Char) := do
  let digits ← takeWhile1 Char.isDigit
  if digits.head? = some '0' ∧ digits.length ≠ 1 then failure else return digits

/-- A point and digits after it. -/
def decimals : Reader (List Char) := do
  char '.'
  return '.' :: (← takeWhile1 Char.isDigit)

/-- A power of ten. -/
def power : Reader (List Char) := do
  let mark ← satisfy fun c => c == 'e' || c == 'E'
  let sign ← optional? (satisfy fun c => c == '+' || c == '-')
  return mark :: (sign.toList ++ (← takeWhile1 Char.isDigit))

def number : Reader Value := do
  let sign ← optional? (char '-')
  let whole ← wholePart
  let part ← optional? decimals
  let exponent ← optional? power
  let signText := if sign.isSome then ['-'] else []
  return .number (String.ofList (signText ++ whole ++ part.getD [] ++ exponent.getD []))

/-- A value that holds no others. -/
def scalar : Reader Value :=
  .string <$> stringBody
    <|> (do word ['n', 'u', 'l', 'l']; return .null)
    <|> (do word ['t', 'r', 'u', 'e']; return .bool true)
    <|> (do word ['f', 'a', 'l', 's', 'e']; return .bool false)
    <|> number

/-- Something with blanks around it. -/
def spaced {α : Type} (r : Reader α) : Reader α := do
  spaces
  let a ← r
  spaces
  return a

/-- The values between two brackets, separated by commas. -/
def enclosed {α : Type} (opening closing : Char) (r : Reader α) : Reader (List α) := do
  char opening
  spaces
  let items ← separated (spaced r) (char ',')
  char closing
  return items

/-- A value in which others stand at most `depth` deep in one another. -/
def value : (depth : Nat) → Reader Value
  | 0 => scalar
  | depth + 1 =>
    scalar
      <|> .array <$> enclosed '[' ']' (value depth)
      <|> .object <$> enclosed '\x7b' '\x7d' (do
        let name ← stringBody
        spaces
        char ':'
        spaces
        return (name, ← value depth))

/-- The greatest depth of a text that is read. -/
def depthLimit : Nat := 127

/-- Reads a text as one value. -/
def Value.ofChars? (s : List Char) : Option Value := parse (spaced (value depthLimit)) s

/-- Reads a text as one value. -/
def Value.ofText? (text : String) : Option Value := Value.ofChars? text.toList

end PathLabels.Json
