import PathLabels.Glob.Token

/-!
# Globs as regular expressions

Matching is specified by regular expressions over bytes, and an expression may nest only so deep.
`depth` is the nesting of the expression of a glob and `expression` its text, which is shown when
the limit is exceeded.
-/

namespace PathLabels.Glob

/-- How deep an expression may nest. -/
def depthLimit : Nat := 250

/-- The characters that have a meaning of their own in an expression. -/
def expressionMeta : List Char := "\\.+*?()|[]\x7b\x7d^$#&-~".toList

/-- The hexadecimal digits of a number below 256, always two. -/
def hexPair (n : Nat) : List Char := [Nat.digitChar (n / 16), Nat.digitChar (n % 16)]

/-- A byte as it is written in an expression. -/
def byteText (b : UInt8) : List Char :=
  let c := Char.ofNat b.toNat
  if b < 0x80 then (if expressionMeta.contains c then ['\\', c] else [c])
  else '\\' :: 'x' :: hexPair b.toNat

/-- A character as it is written in an expression. -/
def charText (c : Char) : List Char := (Text.bytesOf [c]).flatMap byteText

/-- A range of a class as it is written in an expression. -/
def rangeText (r : Char × Char) : List Char :=
  if r.1 = r.2 then charText r.1 else charText r.1 ++ '-' :: charText r.2

mutual

/-- The expression of a token. -/
def Token.expression : Token → List Char
  | .literal c => charText c
  | .any => "[^/]".toList
  | .star => "[^/]*".toList
  | .leading => "(?:/?|.*/)".toList
  | .trailing => "/.*".toList
  | .between => "(?:/|/.*/)".toList
  | .charClass negated ranges =>
    '[' :: (if negated then ['^'] else []) ++ ranges.flatMap rangeText ++ [']']
  | .alternates branches =>
    if allVoid branches then []
    else "(?:".toList ++ branchesExpression branches ++ [')']

/-- The expression of tokens in a row. -/
def sequenceExpression : List Token → List Char
  | [] => []
  | t :: ts => t.expression ++ sequenceExpression ts

/-- The expressions of the branches that are not void, with bars between them. -/
def branchesExpression : List (List Token) → List Char
  | [] => []
  | b :: bs =>
    if branchIsVoid b then branchesExpression bs
    else if allVoid bs then sequenceExpression b
    else sequenceExpression b ++ '|' :: branchesExpression bs

end

/-- The number of branches that are not void. -/
def branchCount (branches : List (List Token)) : Nat :=
  (branches.filter fun b => !branchIsVoid b).length

/-- The number of items that tokens in a row have in an expression: a character has one item for
each byte, a void token none. -/
def itemCount (tokens : List Token) : Nat :=
  tokens.foldl (fun count t => count + match t with
    | .literal c => (Text.bytesOf [c]).length
    | .trailing => 2
    | t => if t.isVoid then 0 else 1) 0

mutual

/-- How deep the expression of a token nests. A group, an alternation, a repetition, a class, a
class of several items and a row of several items each count as one level. -/
def Token.depth : Token → Nat
  | .literal _ => 0
  | .any => 1
  | .star => 2
  | .leading => 4
  | .trailing => 1
  | .between => 4
  | .charClass _ ranges => if (ranges.flatMap classItems).length = 1 then 1 else 2
  | .alternates branches =>
    if allVoid branches then 0
    else 1 + (if branchCount branches = 1 then 0 else 1) + branchesDepth branches

/-- The deepest of the tokens in a row. -/
def sequenceDepth : List Token → Nat
  | [] => 0
  | t :: ts => max t.depth (sequenceDepth ts)

/-- The deepest of the branches that are not void. -/
def branchesDepth : List (List Token) → Nat
  | [] => 0
  | b :: bs =>
    if branchIsVoid b then branchesDepth bs
    else max ((if itemCount b = 1 then 0 else 1) + sequenceDepth b) (branchesDepth bs)

end

/-- How deep the expression of a glob nests: the whole of it is a row. -/
def depth (glob : Glob) : Nat := 1 + sequenceDepth glob

/-- The expression of a glob, anchored at both ends. -/
def expression (glob : Glob) : String :=
  String.ofList ("(?-u)^".toList ++ sequenceExpression glob ++ ['$'])

/-- Whether a glob ends in literal characters that name a file extension. -/
def endsInExtension (glob : Glob) : Bool :=
  let isNamePart (t : Token) : Bool := t.isLiteral && !t.isChar '.' && !t.isChar '/'
  (glob.reverse.dropWhile isNamePart).head?.any (Token.isChar '.')

end PathLabels.Glob
