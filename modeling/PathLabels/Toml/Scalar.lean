import PathLabels.Text.Integers
import PathLabels.Text.Reader
import PathLabels.Toml.Value

/-!
# Scalars of a document

Readers for strings, numbers, dates and times. Line ends are `\n` and `\r\n`; a line end inside a
string is always read as `\n`.
-/

namespace PathLabels.Toml

open Text (Reader)
open Text.Reader

/-! ## Characters -/

def isSpace (c : Char) : Bool := c == ' ' || c == '\t'

/-- Whether a character may stand in a comment: tabs, and anything but control characters. -/
def isCommentChar (c : Char) : Bool :=
  c == '\t' || (0x20 ≤ c.toNat && c.toNat != 0x7F)

/-- Whether a character may stand in a string between single quotes. -/
def isLiteralChar (c : Char) : Bool := isCommentChar c && c != '\''

/-- Whether a character stands for itself in a string between double quotes. -/
def isBasicChar (c : Char) : Bool := isCommentChar c && c != '"' && c != '\\'

def isHexDigit (c : Char) : Bool :=
  c.isDigit || ('a' ≤ c && c ≤ 'f') || ('A' ≤ c && c ≤ 'F')

/-- The value of a digit in a base up to sixteen. -/
def digitValue (c : Char) : Nat :=
  if c.isDigit then c.toNat - '0'.toNat
  else if 'a' ≤ c then c.toNat - 'a'.toNat + 10
  else c.toNat - 'A'.toNat + 10

/-- The number that digits write in a base; underscores between them do not count. -/
def numberOf (base : Nat) (digits : List Char) : Nat :=
  (digits.filter (· != '_')).foldl (fun n c => n * base + digitValue c) 0

def spaces : Reader Unit := discard (takeWhile isSpace)

def newline : Reader Unit := char '\n' <|> word ['\r', '\n']

def comment : Reader Unit := do char '#'; discard (takeWhile isCommentChar)

/-- Spaces, comments and line ends. -/
def blanks : Reader Unit :=
  discard (many (discard (takeWhile1 isSpace) <|> newline <|> do comment; newline))

/-- The rest of a line that holds nothing more. -/
def lineEnd : Reader Unit := do spaces; discard (optional? comment); newline <|> ended

/-! ## Strings -/

/-- The character with a number of `n` hexadecimal digits. -/
def scalarValue (n : Nat) : Reader Char := fun s => do
  let digits := s.take n
  let code := numberOf 16 digits
  if digits.length = n ∧ digits.all isHexDigit ∧ code.isValidChar then
    some (Char.ofNat code, s.drop n)
  else none

/-- What a backslash and the characters after it stand for. -/
def escape : Reader Char := do
  char '\\'
  match ← satisfy fun _ => true with
  | 'b' => return '\x08'
  | 't' => return '\t'
  | 'n' => return '\n'
  | 'f' => return '\x0c'
  | 'r' => return '\r'
  | '"' => return '"'
  | '\\' => return '\\'
  | 'u' => scalarValue 4
  | 'U' => scalarValue 8
  | _ => failure

/-- A string between double quotes. -/
def basicString : Reader (List Char) := do
  char '"'
  let pieces ← many (takeWhile1 isBasicChar <|> do return [← escape])
  char '"'
  return pieces.flatten

/-- A string between single quotes. -/
def literalString : Reader (List Char) := do
  char '\''
  let s ← takeWhile isLiteralChar
  char '\''
  return s

/-- A backslash at the end of a line, which joins the lines. -/
def joinedLines : Reader (List Char) := do
  char '\\'
  spaces
  newline
  discard (many (discard (takeWhile1 isSpace) <|> newline))
  return []

/-- One or two quotes within a string that three of them end. -/
def innerQuotes (quote : Char) (following : Reader Unit) : Reader (List Char) :=
  let followed (n : Nat) : Reader (List Char) := do
    word (List.replicate n quote)
    let s ← get
    following
    set s
    return List.replicate n quote
  followed 2 <|> followed 1

/-- A string between three quotes on each side, made of pieces that hold no bare quote. A line end
right after the beginning does not count. -/
def multiLine (quote : Char) (piece : Reader (List Char)) : Reader (List Char) := do
  let three := List.replicate 3 quote
  word three
  discard (optional? newline)
  let other : Reader Unit := discard (satisfy (· != quote))
  let pieces ← many (piece <|> do
    let quotes ← innerQuotes quote other
    return quotes ++ (← piece))
  let quotes ← optional? (innerQuotes quote (word three))
  word three
  return pieces.flatten ++ quotes.getD []

def multiLineBasic : Reader (List Char) :=
  multiLine '"' (takeWhile1 isBasicChar <|> joinedLines <|> (do return [← escape])
    <|> do newline; return ['\n'])

def multiLineLiteral : Reader (List Char) :=
  multiLine '\'' (takeWhile1 isLiteralChar <|> do newline; return ['\n'])

def string : Reader String :=
  String.ofList <$> (multiLineBasic <|> basicString <|> multiLineLiteral <|> literalString)

/-! ## Numbers -/

def sign : Reader Bool := do
  match ← optional? (satisfy fun c => c == '+' || c == '-') with
  | some '-' => return true
  | _ => return false

/-- Digits with single underscores between them. -/
def digitRun (isDigit : Char → Bool) : Reader (List Char) := do
  let first ← satisfy isDigit
  let more ← many (satisfy isDigit <|> do char '_'; satisfy isDigit)
  return first :: more

/-- The digits of a decimal integer, which has no needless zero in front. -/
def decimalDigits : Reader (List Char) := do
  match ← peek with
  | some '0' => char '0'; return ['0']
  | _ => digitRun Char.isDigit

/-- The digits after a point. -/
def fraction : Reader (List Char) := do char '.'; digitRun Char.isDigit

/-- The exponent of ten after a number. -/
def exponent : Reader Int := do
  discard (satisfy fun c => c == 'e' || c == 'E')
  let negative ← sign
  let n := numberOf 10 (← digitRun Char.isDigit)
  return if negative then -n else n

def positiveInfinity : Float := Float.ofBits 0x7FF0000000000000

/-- The double nearest to `n * 10 ^ e`. Beyond the range of doubles the size of the number alone
decides. -/
def nearestFloat (n : Nat) (e : Int) : Float :=
  let places := (Nat.toDigits 10 n).length
  if n = 0 then 0
  else if 310 < places + e then positiveInfinity
  else if places + e < -330 then 0
  else if e < 0 then Float.ofScientific n true e.natAbs
  else Float.ofScientific n false e.natAbs

def infinite : Reader Float := do word "inf".toList; return positiveInfinity

def notANumber : Reader Float := do word "nan".toList; return Float.ofBits 0x7FF8000000000000

/-- A number with a point or an exponent; a number too great for a double is refused. -/
def finite : Reader Float := do
  let negative ← sign
  let whole ← decimalDigits
  let (part, e) ← (do return ([], ← exponent)) <|>
    (do return (← fraction, (← optional? exponent).getD 0))
  let x := nearestFloat (numberOf 10 (whole ++ part)) (e - part.length)
  if negative then return -x
  else if x.isInf then failure
  else return x

def float : Reader Float :=
  finite <|> do
    let negative ← sign
    let x ← infinite <|> notANumber
    return if negative then -x else x

/-- An integer in base sixteen, eight or two. -/
def basedInteger (mark : Char) (base : Nat) (isDigit : Char → Bool) : Reader Int := do
  word ['0', mark]
  return numberOf base (← digitRun isDigit)

/-- An integer of sixty-four bits. -/
def integer : Reader Int := do
  let n ← basedInteger 'x' 16 isHexDigit
    <|> basedInteger 'o' 8 (fun c => '0' ≤ c && c ≤ '7')
    <|> basedInteger 'b' 2 (fun c => c == '0' || c == '1')
    <|> do
      let negative ← sign
      let n : Int := numberOf 10 (← decimalDigits)
      return if negative then -n else n
  if Text.isInt64 n then return n else failure

/-! ## Dates and times -/

/-- A number of exactly `n` digits from `low` to `high`. -/
def field (n low high : Nat) : Reader Nat := fun s =>
  let digits := s.take n
  let value := numberOf 10 digits
  if digits.length = n ∧ digits.all Char.isDigit ∧ low ≤ value ∧ value ≤ high then
    some (value, s.drop n)
  else none

def daysInMonth (year month : Nat) : Nat :=
  if month = 2 then
    if year % 4 = 0 && (year % 100 != 0 || year % 400 = 0) then 29 else 28
  else if month = 4 || month = 6 || month = 9 || month = 11 then 30
  else 31

def date : Reader Unit := do
  let year ← field 4 0 9999
  char '-'
  let month ← field 2 1 12
  char '-'
  discard (field 2 1 (daysInMonth year month))

def time : Reader Unit := do
  discard (field 2 0 23)
  char ':'
  discard (field 2 0 59)
  char ':'
  discard (field 2 0 60)
  discard (optional? do char '.'; takeWhile1 Char.isDigit)

/-- The distance of a local time from universal time. -/
def offset : Reader Unit :=
  discard (satisfy fun c => c == 'Z' || c == 'z') <|> do
    discard (satisfy fun c => c == '+' || c == '-')
    discard (field 2 0 23)
    char ':'
    discard (field 2 0 59)

def datetime : Reader Unit :=
  (do
    date
    discard (optional? do
      discard (satisfy fun c => c == 'T' || c == 't' || c == ' ')
      time
      optional? offset)) <|> time

/-- A scalar that begins with a digit or a sign. -/
def numeric : Reader Value :=
  (do datetime; return .datetime) <|> .float <$> float <|> .integer <$> integer

end PathLabels.Toml
