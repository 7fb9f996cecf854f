import PathLabels.Json.Reading
import PathLabels.Text.Utf8

/-!
# Fields of objects

Of an object one field is often all that is wanted, and the others are passed over. What is passed
over has to have the form of a value and no more: its strings may hold bytes that are no UTF-8 and
escapes of half a surrogate pair, and its arrays and objects may stand as deep in one another as
they like. The field itself has to be a text, and so have the names of all fields, since they are read to
find it.

Because of the bytes that are no UTF-8, a body is not decoded before it is read. It is read byte by
byte, and only its strings are decoded.
-/

namespace PathLabels.Json

open Text (Reader)
open Text.Reader

/-- Bytes as the characters with their numbers. What stands between the strings of a value is ASCII,
so it looks the same in both forms. -/
def octets (bs : List UInt8) : List Char := bs.map fun b => Char.ofNat b.toNat

/-! ## Strings -/

/-- What stands for one character of a string or for one byte of it, as bytes. -/
def stringOctets : Reader (List UInt8)
  | [] => none
  | '\\' :: s => (afterBackslash s).map fun (c, rest) => (Text.bytesOf [c], rest)
  | c :: s => if isPlain c then some ([UInt8.ofNat c.toNat], s) else none

/-- What stands in a string up to its end, as bytes. -/
def stringBytes : Reader (List UInt8) := List.flatten <$> many stringOctets

/-- A string in its quotes that has to be UTF-8. -/
def text : Reader String := do
  char '"'
  let bytes ← stringBytes
  char '"'
  match Text.decode bytes with
  | .ok s => return s
  | .error _ => failure

/-- An escape that is passed over. The number of a character may be any. -/
def skipAfterBackslash : Reader Unit := do
  match ← satisfy fun _ => true with
  | 'u' => discard hexQuad
  | c => if c ∈ ['"', '\\', '/', 'b', 'f', 'n', 'r', 't'] then return () else failure

def skipStringChar : Reader Unit
  | [] => none
  | '\\' :: s => skipAfterBackslash s
  | c :: s => if isPlain c then some ((), s) else none

/-- A string that is passed over. -/
def skipString : Reader Unit := do
  char '"'
  discard (many skipStringChar)
  char '"'

/-! ## Values that are passed over -/

/-- A value that holds no others. -/
def skipScalar : Reader Unit :=
  skipString <|> word ['n', 'u', 'l', 'l'] <|> word ['t', 'r', 'u', 'e']
    <|> word ['f', 'a', 'l', 's', 'e'] <|> discard number

/-- The name of a member and its value, by the reader for such a value. -/
def skipMember (value : Reader Unit) : Reader Unit := do
  skipString
  spaces
  char ':'
  spaces
  value

/-- A value, by the reader for the values that stand in it. -/
def skipOuter (inner : Reader Unit) : Reader Unit :=
  skipScalar <|> discard (enclosed '[' ']' inner)
    <|> discard (enclosed '\x7b' '\x7d' (skipMember inner))

/-- A value in which others stand at most `depth` deep in one another. -/
def skipWithin : (depth : Nat) → Reader Unit
  | 0 => skipScalar
  | depth + 1 => skipOuter (skipWithin depth)

/-- A value of any depth. In a text values do not stand deeper in one another than the text has
characters. -/
def skip : Reader Unit := fun s => skipWithin s.length s

/-! ## Objects -/

/-- A member of an object: the text if it is the field that is wanted. -/
def member (name : String) : Reader (Option String) := do
  let found ← text
  spaces
  char ':'
  spaces
  if found = name then some <$> text else do
    skip
    return none

/-- The text in the field of an object, which has the field once. An array with nothing but the text
stands for such an object too. -/
def field (name : String) : Reader String := do
  let texts ← enclosed '[' ']' (some <$> text) <|> enclosed '\x7b' '\x7d' (member name)
  match texts.filterMap id with
  | [s] => return s
  | _ => failure

/-- The texts in the field of the objects of an array. -/
def fields (name : String) : Reader (List String) := enclosed '[' ']' (field name)

/-- Reads all of a body. -/
def ofBody? {α : Type} (r : Reader α) (body : List UInt8) : Option α :=
  parse (spaced r) (octets body)

end PathLabels.Json
