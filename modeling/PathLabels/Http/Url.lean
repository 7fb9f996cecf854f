import PathLabels.Http.Host

/-!
# Addresses

An address has a scheme, perhaps a host with the number of a service, a path, and perhaps a query
and a fragment. Reading brings each part into its normal form: blanks around the text and line
ends inside it do not count, dot segments are resolved, and characters that may not stand in a
part are percent-encoded. A question mark ends the path and a number sign ends everything before
the fragment, wherever in the text they come from.
-/

namespace PathLabels.Http

/-- The path of an address. -/
inductive UrlPath where
  /-- Segments, each after a slash. -/
  | segments (s : List String)
  /-- The path of an address without a host that does not begin with a slash. -/
  | plain (text : String)
  deriving Repr, DecidableEq, Inhabited

/-- An address in normal form. -/
structure Url where
  scheme : String
  /-- The host, if the address has a place for one; it may be empty. -/
  host : Option String := none
  /-- The number of the service at the host, if it is not the usual one of the scheme. -/
  service : Option Nat := none
  path : UrlPath
  query : Option String := none
  fragment : Option String := none
  deriving Repr, DecidableEq, Inhabited

namespace Url

/-! ## Parts of a text -/

/-- A text without control characters and blanks at its ends and without tabs and line ends. -/
def clean (s : List Char) : List Char :=
  let isEdge (c : Char) : Bool := c.toNat ≤ 0x20
  let inner := ((s.dropWhile isEdge).reverse.dropWhile isEdge).reverse
  inner.filter fun c => !(c == '\t' || c == '\n' || c == '\r')

/-- What stands before the first `mark` and what stands after it, if there is one. -/
def cutAt (mark : Char) (s : List Char) : List Char × Option (List Char) :=
  match s.dropWhile (· != mark) with
  | [] => (s, none)
  | _ :: rest => (s.takeWhile (· != mark), some rest)

def isSchemeChar (c : Char) : Bool := c.isAlphanum || c == '+' || c == '-' || c == '.'

/-- The scheme in lower case, and what follows its colon. -/
def scheme? (s : List Char) : Option (List Char × List Char) :=
  match cutAt ':' s with
  | (c :: name, some rest) =>
    if c.isAlpha && name.all isSchemeChar then some ((c :: name).map Char.toLower, rest) else none
  | _ => none

/-- The usual services of the well-known schemes that have a host. -/
def usualServices : List (String × Nat) :=
  [("http", 80), ("https", 443), ("ws", 80), ("wss", 443), ("ftp", 21)]

/-- Whether a scheme is well known: its addresses have a host or name a file. -/
def isSpecial (scheme : String) : Bool :=
  (usualServices.lookup scheme).isSome || scheme == "file"

/-- Whether a character separates segments. -/
def isSlash (special : Bool) (c : Char) : Bool := c == '/' || (special && c == '\\')

/-! ## Paths -/

/-- Whether a segment stands for the place where it is. -/
def isSingleDot (segment : List Char) : Bool :=
  let s := segment.map Char.toLower
  s == ['.'] || s == "%2e".toList

/-- Whether a segment stands for the place above it. -/
def isDoubleDot (segment : List Char) : Bool :=
  let s := segment.map Char.toLower
  s == ['.', '.'] || s == ".%2e".toList || s == "%2e.".toList || s == "%2e%2e".toList

/-- The segments between slashes. -/
def splitSegments (special : Bool) (s : List Char) : List (List Char) :=
  (s.map fun c => if isSlash special c then '/' else c).splitOn '/'

/-- Resolves dot segments. A dot segment at the end leaves an empty segment. -/
def resolveDots (done : List (List Char)) : List (List Char) → List (List Char)
  | [] => done
  | segment :: rest =>
    let done' :=
      if isDoubleDot segment then done.dropLast
      else if isSingleDot segment then done
      else done ++ [segment]
    let isDot := isDoubleDot segment || isSingleDot segment
    resolveDots (if isDot && rest.isEmpty then done' ++ [[]] else done') rest

/-- The segments of a path, which may or may not begin with a slash. -/
def pathSegments (special : Bool) (s : List Char) : List String :=
  let inner := match s with
    | c :: rest => if isSlash special c then rest else s
    | [] => []
  (resolveDots [] ((splitSegments special inner).map (Percent.encode Percent.inPath))).map
    String.ofList

/-! ## Host and service -/

/-- The service that digits write. No digits write none, and so do those of the usual service of the
scheme. -/
def service? (scheme : String) (digits : List Char) : Option (Option Nat) :=
  if digits.isEmpty then some none
  else if !digits.all Char.isDigit then none
  else (Host.numberIn? 10 digits).bind fun n =>
    if 65535 < n then none
    else if usualServices.lookup scheme = some n then some none
    else some (some n)

/-- A host and the number after it. A colon inside brackets is part of the host. -/
def splitService (s : List Char) : List Char × List Char :=
  match s with
  | '[' :: _ =>
    let (inner, rest) := cutAt ']' s
    match rest with
    | some (':' :: digits) => (inner ++ [']'], digits)
    | some rest => (inner ++ (']' :: rest), [])
    | none => (s, [])
  | _ =>
    let (host, digits) := cutAt ':' s
    (host, digits.getD [])

/-- What follows the last at sign, before which a user may be named. -/
def withoutUser (s : List Char) : List Char := (s.reverse.takeWhile (· != '@')).reverse

/-- The host and the service that stand before the path. An empty host has neither user nor
service. -/
def authority? (scheme : String) (s : List Char) : Option (String × Option Nat) := do
  let (hostText, digits) := splitService (withoutUser s)
  let special := isSpecial scheme
  let host ← if special then Host.special? hostText else Host.plain? hostText
  let service ← service? scheme digits
  if host.isEmpty && !s.isEmpty then none else some (String.ofList host, service)

/-! ## Addresses -/

/-- What follows the scheme, up to query and fragment. -/
def ofMain? (scheme : String) (s : List Char) : Option Url :=
  let special := isSpecial scheme
  let hostAndPath (rest : List Char) : Option Url := do
    let isEnd (c : Char) : Bool := isSlash special c
    let (host, service) ← authority? scheme (rest.takeWhile fun c => !isEnd c)
    let path := rest.dropWhile fun c => !isEnd c
    let segments := if path.isEmpty && !special then [] else pathSegments special path
    return { scheme, host := some host, service, path := .segments segments }
  if scheme == "file" then
    match s with
    | a :: b :: rest =>
      if isSlash true a && isSlash true b then
        let hostText := rest.takeWhile fun c => !isSlash true c
        let path := pathSegments true (rest.dropWhile fun c => !isSlash true c)
        if hostText.isEmpty then some { scheme, path := .segments path }
        else (Host.special? hostText).map fun host =>
          { scheme, host := if host == "localhost".toList then none else String.ofList host,
            path := .segments path }
      else some { scheme, path := .segments (pathSegments true s) }
    | _ => some { scheme, path := .segments (pathSegments true s) }
  else if special then hostAndPath (s.dropWhile (isSlash true))
  else match s with
    | '/' :: '/' :: rest => hostAndPath rest
    | '/' :: _ => some { scheme, path := .segments (pathSegments false s) }
    | _ => some { scheme, path := .plain (String.ofList (Percent.encode Percent.isControl s)) }

/-- Reads an address. -/
def ofText? (text : String) : Option Url := do
  let (scheme, rest) ← scheme? (clean text.toList)
  let scheme := String.ofList scheme
  let (rest, fragment) := cutAt '#' rest
  let (main, query) := cutAt '?' rest
  let url ← ofMain? scheme main
  let querySet := if isSpecial scheme then Percent.inSpecialQuery else Percent.inQuery
  return { url with
    query := query.map fun q => String.ofList (Percent.encode querySet q)
    fragment := fragment.map fun f => String.ofList (Percent.encode Percent.inFragment f) }

/-- Whether an address names a host. -/
def hasHost (url : Url) : Bool := url.host.any fun host => !host.isEmpty

/-- The text of a path. -/
def pathText : UrlPath → String
  | .segments s => String.join (s.map fun segment => "/" ++ segment)
  | .plain text => text

/-- The text of an address. -/
def text (url : Url) : String :=
  let host := match url.host, url.path with
    | some host, _ => "//" ++ host ++ (url.service.map fun n => ":" ++ toString n).getD ""
    | none, .segments ("" :: _ :: _) => if url.scheme == "file" then "//" else "/."
    | none, _ => if url.scheme == "file" then "//" else ""
  url.scheme ++ ":" ++ host ++ pathText url.path
    ++ (url.query.map fun q => "?" ++ q).getD "" ++ (url.fragment.map fun f => "#" ++ f).getD ""

/-- Path and query, as they stand in a request. -/
def target (url : Url) : String :=
  pathText url.path ++ (url.query.map fun q => "?" ++ q).getD ""

end Url

end PathLabels.Http
