import PathLabels.Text.Utf8

/-!
# Globs

A glob is a sequence of tokens. Tokens match sequences of bytes, so `?` takes one byte of a
character that is several bytes long, and a character class lists bytes.

Matching goes from the last token to the first. The tokens after a point have a verdict on each
suffix of the path: whether they match it. `Token.verdicts` turns the verdicts of the tokens after
a token into those that include it, in one pass over the path, and a glob matches when the verdict
on the whole path is true.
-/

namespace PathLabels

/-- One item of a glob. -/
inductive Glob.Token where
  /-- A character that stands for itself. -/
  | literal (c : Char)
  /-- `?`: one byte other than a slash. -/
  | any
  /-- `*`: any number of bytes other than slashes. -/
  | star
  /-- `**/` at the beginning: nothing, or anything that ends in a slash. -/
  | leading
  /-- `/**` at the end: a slash and anything after it. -/
  | trailing
  /-- `/**/` in between: a slash, or anything between two slashes. -/
  | between
  /-- `[...]`: one byte that is in one of the ranges, or in none of them if `negated`. -/
  | charClass (negated : Bool) (ranges : List (Char × Char))
  /-- `{...,...}`: one of several branches. -/
  | alternates (branches : List (List Glob.Token))

/-- A glob as its sequence of tokens. -/
abbrev Glob := List Glob.Token

namespace Glob

/-- The byte that separates path components. -/
def slash : UInt8 := 47

/-- The bytes from the first to the last one that a class lists for a range of characters: the
bytes of the two ends, with a range between the last byte of the one and the first of the other. -/
def classItems (range : Char × Char) : List (UInt8 × UInt8) :=
  let low := Text.bytesOf [range.1]
  let high := Text.bytesOf [range.2]
  if range.1 = range.2 then low.map fun b => (b, b)
  else (low.dropLast.map fun b => (b, b)) ++ [(low.getLast?.getD 0, high.headD 0)]
    ++ high.tail.map fun b => (b, b)

/-- Whether a byte is in one of the ranges of a class. -/
def inRanges (ranges : List (Char × Char)) (b : UInt8) : Bool :=
  (ranges.flatMap classItems).any fun r => r.1 ≤ b && b ≤ r.2

/-- One verdict for each suffix of a byte sequence, the whole sequence first and the empty
suffix last. -/
abbrev Verdicts := List Bool

namespace Verdicts

/-- The verdict on the whole sequence. -/
def whole (v : Verdicts) : Bool := v.headD false

/-- The same verdict on every suffix. -/
def const (b : Bool) (s : List UInt8) : Verdicts := List.replicate (s.length + 1) b

/-- True of the empty suffix only: no token is left. -/
def atEnd : List UInt8 → Verdicts
  | [] => [true]
  | _ :: s => false :: atEnd s

/-- One byte that satisfies `p`, then what `v` asks for. -/
def one (p : UInt8 → Bool) : List UInt8 → Verdicts → Verdicts
  | [], _ => [false]
  | b :: s, v => (p b && whole v.tail) :: one p s v.tail

/-- Any number of bytes that satisfy `p`, then what `v` asks for. -/
def many (p : UInt8 → Bool) : List UInt8 → Verdicts → Verdicts
  | [], v => [whole v]
  | b :: s, v =>
    let later := many p s v.tail
    (whole v || (p b && whole later)) :: later

/-- A byte sequence that ends in a slash, then what `v` asks for. -/
def throughSlash : List UInt8 → Verdicts → Verdicts
  | [], _ => [false]
  | b :: s, v =>
    let later := throughSlash s v.tail
    ((b == slash && whole v.tail) || whole later) :: later

/-- What one of the two asks for. -/
def either (v w : Verdicts) : Verdicts := List.zipWith (· || ·) v w

/-- The bytes `u`, then what `v` asks for. -/
def exactly (u : List UInt8) (s : List UInt8) (v : Verdicts) : Verdicts :=
  u.foldr (fun b v => one (· == b) s v) v

end Verdicts

mutual

/-- Whether a token is written `{}`, perhaps with commas and further such tokens inside. It
matches only the empty sequence, and a branch of such tokens does not count as a branch. -/
def Token.isVoid : Token → Bool
  | .alternates branches => allVoid branches
  | _ => false

/-- Whether every token of a branch is void. -/
def branchIsVoid : List Token → Bool
  | [] => true
  | t :: ts => t.isVoid && branchIsVoid ts

/-- Whether every branch is void. -/
def allVoid : List (List Token) → Bool
  | [] => true
  | b :: bs => branchIsVoid b && allVoid bs

end

mutual

/-- The verdicts of a token followed by tokens whose verdicts are `v`. -/
def Token.verdicts (s : List UInt8) : Token → Verdicts → Verdicts
  | .literal c, v => .exactly (Text.bytesOf [c]) s v
  | .any, v => .one (· != slash) s v
  | .star, v => .many (· != slash) s v
  | .leading, v => .either v (.throughSlash s v)
  | .trailing, v => .exactly [slash] s (.many (fun _ => true) s v)
  | .between, v => .exactly [slash] s (.either v (.throughSlash s v))
  | .charClass negated ranges, v => .one (fun b => inRanges ranges b != negated) s v
  | .alternates branches, v => if allVoid branches then v else branchesVerdicts s branches v

/-- The verdicts of tokens in a row. -/
def sequenceVerdicts (s : List UInt8) : List Token → Verdicts → Verdicts
  | [], v => v
  | t :: ts, v => t.verdicts s (sequenceVerdicts s ts v)

/-- The verdicts of one of several branches; void branches are passed over. -/
def branchesVerdicts (s : List UInt8) : List (List Token) → Verdicts → Verdicts
  | [], _ => .const false s
  | b :: bs, v =>
    if branchIsVoid b then branchesVerdicts s bs v
    else .either (sequenceVerdicts s b v) (branchesVerdicts s bs v)

end

/-- Whether a token is a character that stands for itself. -/
def Token.isLiteral : Token → Bool
  | .literal _ => true
  | _ => false

/-- Whether a token is the character `c` that stands for itself. -/
def Token.isChar (c : Char) : Token → Bool
  | .literal d => d == c
  | _ => false

/-- Whether a glob is literal from beginning to end, or literal and of several components after
a leading `**/`. Such a glob is compared with the end of the path, whatever that is. -/
def isFixed : Glob → Bool
  | .leading :: tokens => tokens.all Token.isLiteral && tokens.any (Token.isChar '/')
  | tokens => tokens.all Token.isLiteral

/-- Whether a glob asks for a file name that ends in a dot. -/
def asksForFinalDot (glob : Glob) : Bool :=
  glob.getLast?.any (Token.isChar '.') && !isFixed glob

/-- The last component of a path; empty if the path ends in a slash. -/
def lastComponent (path : List UInt8) : List UInt8 :=
  (path.reverse.takeWhile (· != slash)).reverse

/-- Whether the last component of a path leads back to the parent. Such a path has no file name. -/
def endsInParent (path : List UInt8) : Bool := lastComponent path == Text.bytesOf ['.', '.']

/-- Whether the tokens match a whole path, one after the other. -/
def tokensMatch (glob : Glob) (path : List UInt8) : Bool :=
  (sequenceVerdicts path glob (.atEnd path)).whole

/-- Whether a glob matches a whole path. The glob `**` alone matches every path, and a glob that
asks for a file name matches no path that has none. -/
def isMatch (glob : Glob) (path : List UInt8) : Bool :=
  match glob with
  | [.leading] => true
  | tokens => tokensMatch tokens path && !(asksForFinalDot tokens && endsInParent path)

end Glob

end PathLabels
