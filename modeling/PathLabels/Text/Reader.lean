/-!
# Readers

A reader takes a beginning of a character sequence and gives a value and the rest, or refuses.
Choice tries the second reader on the same text when the first refuses.
-/

namespace PathLabels.Text

/-- A function that reads a value from the beginning of a character sequence. -/
abbrev Reader := StateT (List Char) Option

namespace Reader

variable {α β : Type}

/-- The next character, which is not taken. -/
def peek : Reader (Option Char) := fun s => some (s.head?, s)

/-- One character that satisfies `p`. -/
def satisfy (p : Char → Bool) : Reader Char
  | [] => none
  | c :: s => if p c then some (c, s) else none

/-- The character `c`. -/
def char (c : Char) : Reader Unit := do discard (satisfy (· == c))

/-- The characters of a word, in order. -/
def word : List Char → Reader Unit
  | [] => pure ()
  | c :: cs => do char c; word cs

/-- As many characters as satisfy `p`. -/
def takeWhile (p : Char → Bool) : Reader (List Char) :=
  fun s => some (s.takeWhile p, s.dropWhile p)

/-- As many characters as satisfy `p`, and at least one. -/
def takeWhile1 (p : Char → Bool) : Reader (List Char) := do
  let s ← takeWhile p
  if s.isEmpty then failure else return s

/-- A value if there is one. -/
def optional? (r : Reader α) : Reader (Option α) := (some <$> r) <|> pure none

/-- The end of the text. -/
def ended : Reader Unit
  | [] => some ((), [])
  | _ :: _ => none

/-- Values one after the other, as many as there are. A reader that takes nothing ends them. -/
def many (r : Reader α) (s : List Char) : Option (List α × List Char) :=
  match r s with
  | none => some ([], s)
  | some (a, rest) =>
    if rest.length < s.length then (many r rest).map fun (as, rest) => (a :: as, rest)
    else some ([], s)
  termination_by s.length

/-- Values with separators between them, perhaps none. -/
def separated (r : Reader α) (separator : Reader β) : Reader (List α) :=
  (do
    let a ← r
    let as ← many (do discard separator; r)
    return a :: as) <|> pure []

/-- Reads a whole text. -/
def parse (r : Reader α) (s : List Char) : Option α :=
  match r s with
  | some (a, []) => some a
  | _ => none

end Reader

end PathLabels.Text
