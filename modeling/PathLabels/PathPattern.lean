import PathLabels.Glob.Reading
import PathLabels.Glob.Expression
import PathLabels.Path
import PathLabels.Specificity

/-!
# Path patterns

A pattern without wildcards names a path by its components; it matches that path and everything
below it. A pattern with one of the characters `* ? [ {` is a glob. It too matches everything
below the paths it names: it holds the glob as written and the same glob followed by `/**`.
-/

namespace PathLabels

/-- Why a text is not a path pattern. -/
inductive PatternFault where
  /-- Nothing is left of the text after trimming. -/
  | empty
  /-- The text holds slashes only. -/
  | noComponent
  /-- The text `glob` is not a glob. -/
  | malformed (glob : String) (fault : Glob.Fault)
  /-- A glob nests too deep; one that ends in a file extension is shown as an expression. -/
  | tooDeep (expression : Option String)
  deriving Repr, DecidableEq

/-- The text shown for a fault. -/
def PatternFault.message : PatternFault → String
  | .empty => "pattern is empty"
  | .noComponent => "pattern names no path component"
  | .malformed glob fault => s!"error parsing glob '{glob}': " ++ fault.message
  | .tooDeep none => "error parsing pattern 0"
  | .tooDeep (some expression) =>
    s!"error parsing glob '{expression}': " ++ "error parsing pattern 0"

/-- A pattern for paths. -/
inductive PathPattern where
  /-- A path, given by its components, and everything below it. -/
  | literal (raw : String) (components : List String)
  /-- The paths that a glob matches, and everything below them. -/
  | glob (raw : String) (exact below : Glob) (specificity : Specificity)

namespace PathPattern

/-- The characters that make a pattern a glob. -/
def isWildcard (c : Char) : Bool := c == '*' || c == '?' || c == '[' || c == '\x7b'

/-- How literal a glob is: what stands before its first wildcard. -/
def globSpecificity (text : List Char) : Specificity :=
  let start := text.takeWhile fun c => !isWildcard c
  { components := start.count '/', chars := (Text.bytesOf start).length }

/-- A text without the slashes at its end. -/
def dropTrailingSlashes (text : List Char) : List Char :=
  (text.reverse.dropWhile (· == '/')).reverse

/-- Reads one glob of a pattern. -/
def readGlob (text : List Char) : Except PatternFault Glob :=
  (Glob.ofChars? text).mapError (.malformed (String.ofList text))

/-- Reads the trimmed text of a glob pattern. -/
def ofGlobText (raw : String) (text : List Char) : Except PatternFault PathPattern := do
  let base := dropTrailingSlashes text
  let exact ← readGlob base
  let below ← readGlob (base ++ "/**".toList)
  if exact.depth > Glob.depthLimit || below.depth > Glob.depthLimit then
    throw (.tooDeep (if exact.endsInExtension then some exact.expression else none))
  return .glob raw exact below (globSpecificity text)

/-- Reads a pattern: blanks around it and one leading `./` do not count. -/
def parse (raw : String) : Except PatternFault PathPattern :=
  let text := Path.normalizeChars (Text.trimChars raw.toList)
  if text.isEmpty then .error .empty
  else if text.any isWildcard then ofGlobText raw text
  else
    let components := Path.components text
    if components.isEmpty then .error .noComponent else .ok (.literal raw components)

/-- The pattern as it was written. -/
def raw : PathPattern → String
  | .literal raw _ => raw
  | .glob raw _ _ _ => raw

/-- Whether a path falls under a pattern. -/
def isMatch (pattern : PathPattern) (path : String) : Bool :=
  let path := Path.normalizeChars path.toList
  match pattern with
  | .literal _ components => components.isPrefixOf (Path.components path)
  | .glob _ exact below _ =>
    let bytes := Text.bytesOf path
    exact.isMatch bytes || below.isMatch bytes

/-- How literal a pattern is. The bytes of a path include the slashes between its components. -/
def specificity : PathPattern → Specificity
  | .literal _ components =>
    { components := components.length
      chars := Path.byteCount components + (components.length - 1) }
  | .glob _ _ _ specificity => specificity

/-- The components of the path that a pattern names; a glob names none. -/
def literalComponents? : PathPattern → Option (List String)
  | .literal _ components => some components
  | .glob _ _ _ _ => none

/-- The path that a pattern names. -/
def literalPath? (pattern : PathPattern) : Option String :=
  pattern.literalComponents?.map Path.join

end PathPattern

end PathLabels
