import PathLabels.Json.Value

/-!
# Writing JSON

A value is written on one line without blanks (`compact`), or over several lines with two blanks
for each level (`pretty`). Quotes, backslashes and control characters are escaped, so no string
puts a line end into the text; every other character stands for itself.
-/

namespace PathLabels.Json

/-! ## Strings -/

/-- A number below 256 in two hexadecimal digits. -/
def hexPair (n : Nat) : List Char := [Nat.digitChar (n / 16), Nat.digitChar (n % 16)]

/-- A character inside a string. -/
def escaped (c : Char) : List Char :=
  if c = '"' then ['\\', '"']
  else if c = '\\' then ['\\', '\\']
  else if c = '\x08' then ['\\', 'b']
  else if c = '\t' then ['\\', 't']
  else if c = '\n' then ['\\', 'n']
  else if c = '\x0c' then ['\\', 'f']
  else if c = '\r' then ['\\', 'r']
  else if c.toNat < 0x20 then ['\\', 'u', '0', '0'] ++ hexPair c.toNat
  else [c]

/-- A string in its quotes. -/
def stringText (s : String) : List Char := '"' :: (s.toList.flatMap escaped ++ ['"'])

/-! ## Values -/

mutual

/-- A value on one line. -/
def compactChars : Value → List Char
  | .null => ['n', 'u', 'l', 'l']
  | .bool true => ['t', 'r', 'u', 'e']
  | .bool false => ['f', 'a', 'l', 's', 'e']
  | .number digits => digits.toList
  | .string s => stringText s
  | .array [] => ['[', ']']
  | .array (v :: items) => '[' :: (compactChars v ++ compactItems items)
  | .object [] => ['\x7b', '\x7d']
  | .object ((name, v) :: members) =>
    '\x7b' :: (stringText name ++ ':' :: (compactChars v ++ compactMembers members))

/-- The items after the first, and the end of the array. -/
def compactItems : List Value → List Char
  | [] => [']']
  | v :: items => ',' :: (compactChars v ++ compactItems items)

/-- The members after the first, and the end of the object. -/
def compactMembers : List (String × Value) → List Char
  | [] => ['\x7d']
  | (name, v) :: members =>
    ',' :: (stringText name ++ ':' :: (compactChars v ++ compactMembers members))

end

/-- The beginning of a line at a level. -/
def indent (level : Nat) : List Char := '\n' :: List.replicate (2 * level) ' '

mutual

/-- A value over several lines, whose own items stand one level deeper. -/
def prettyChars (level : Nat) : Value → List Char
  | .array [] => ['[', ']']
  | .array (v :: items) =>
    '[' :: (indent (level + 1) ++ (prettyChars (level + 1) v ++ prettyItems level items))
  | .object [] => ['\x7b', '\x7d']
  | .object ((name, v) :: members) =>
    '\x7b' :: (indent (level + 1) ++ (stringText name ++ ':' :: ' '
      :: (prettyChars (level + 1) v ++ prettyMembers level members)))
  | v => compactChars v

/-- The items after the first, and the end of the array. -/
def prettyItems (level : Nat) : List Value → List Char
  | [] => indent level ++ [']']
  | v :: items =>
    ',' :: (indent (level + 1) ++ (prettyChars (level + 1) v ++ prettyItems level items))

/-- The members after the first, and the end of the object. -/
def prettyMembers (level : Nat) : List (String × Value) → List Char
  | [] => indent level ++ ['\x7d']
  | (name, v) :: members =>
    ',' :: (indent (level + 1) ++ (stringText name ++ ':' :: ' '
      :: (prettyChars (level + 1) v ++ prettyMembers level members)))

end

namespace Value

/-- A value on one line, without blanks. -/
def compact (v : Value) : String := String.ofList (compactChars v)

/-- A value over several lines. -/
def pretty (v : Value) : String := String.ofList (prettyChars 0 v)

end Value

end PathLabels.Json
