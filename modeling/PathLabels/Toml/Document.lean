import PathLabels.Toml.Scalar
import PathLabels.Toml.Tree

/-!
# Documents

The reader for whole documents of the format TOML 1.0: values that hold values, lines, and the
table that the lines make.
-/

namespace PathLabels.Toml

open Text (Reader)
open Text.Reader

/-- How deep arrays and inline tables may nest, and how many parts a dotted key may have. -/
def nestingLimit : Nat := 80

def isBareKeyChar (c : Char) : Bool := c.isAlphanum || c == '-' || c == '_'

/-- One part of a key. -/
def simpleKey : Reader String :=
  String.ofList <$> (basicString <|> literalString <|> takeWhile1 isBareKeyChar)

/-- A key: parts with dots between them, and spaces around each. -/
def key : Reader (List String) := do
  let part : Reader String := do
    spaces
    let k ← simpleKey
    spaces
    return k
  let parts ← separated part (char '.')
  if parts.isEmpty || nestingLimit < parts.length then failure else return parts

/-- A key and its value, where `value` reads the value. -/
def keyValue (value : Reader Value) : Reader (List String × Value) := do
  let path ← key
  char '='
  spaces
  return (path, ← value)

/-- The items of an array, up to its closing bracket. -/
def arrayItems (value : Reader Value) : Reader Value := do
  let item : Reader Value := do
    blanks
    let v ← value
    blanks
    return v
  let items ← separated item (char ',')
  if !items.isEmpty then discard (optional? (char ','))
  blanks
  char ']'
  return .array items

/-- The members of an inline table, up to its closing brace. -/
def inlineMembers (value : Reader Value) : Reader Value := do
  let member : Reader (List String × Value) := do
    let m ← keyValue value
    spaces
    return m
  let members ← separated member (char ',')
  spaces
  char '\x7d'
  let entries : Option Node.Entries :=
    members.foldlM (fun entries (path, v) => Node.assign path v entries) []
  return .table (Node.toTable (← StateT.lift entries))

/-- A value that holds no other values. -/
def scalar : Reader Value := do
  match ← peek with
  | some '"' | some '\'' => .string <$> string
  | some 't' => do word "true".toList; return .boolean true
  | some 'f' => do word "false".toList; return .boolean false
  | some 'i' => .float <$> infinite
  | some 'n' => .float <$> notANumber
  | _ => numeric

/-- A value that nests at most `depth` levels. -/
def value : (depth : Nat) → Reader Value
  | 0 => scalar
  | depth + 1 => do
    match ← peek with
    | some '[' => char '['; arrayItems (value depth)
    | some '\x7b' => char '\x7b'; inlineMembers (value depth)
    | _ => scalar

/-- A line that says something, up to its end. -/
def statement : Reader Statement := do
  let line ← (do
      word ['[', '[']
      let path ← key
      word [']', ']']
      return .tables path)
    <|> (do
      char '['
      let path ← key
      char ']'
      return .table path)
    <|> (do
      let (path, v) ← keyValue (value nestingLimit)
      return .assign path v)
  lineEnd
  return line

/-- The lines of a document that say something. -/
def statements : Reader (List Statement) := do
  discard (optional? (char '\uFEFF'))
  spaces
  let line : Reader (Option Statement) := do
    let s ← (some <$> statement) <|> do
      discard (optional? comment)
      newline
      return none
    spaces
    return s
  let lines ← many line
  discard (optional? comment)
  return lines.reduceOption

/-- Reads a document; none if the text is not one. -/
def Table.ofText? (text : String) : Option Table := do
  Assembly.document? (← parse statements text.toList)

end PathLabels.Toml
