import PathLabels.Text.Integers

/-!
# Log filters

A filter is a list of directives separated by commas. A directive is a level, a target, or a target
with a level, and a target also stands for every target that it begins. Of the directives that
speak of a target the longest decides. What the program itself logs has the target `autolabel`.
-/

namespace PathLabels.Cli

/-- How much is logged, from nothing to everything. -/
abbrev LogLevel := Nat

/-- The level with a name or a number. -/
def levelOf? (name : String) : Option LogLevel :=
  let names := ["off", "error", "warn", "info", "debug", "trace"]
  (Text.natural? 5 name).or (names.idxOf? (String.ofList (name.toList.map Char.toLower)))

/-- The greatest level. -/
def fullLevel : LogLevel := 5

/-- A directive. One that asks for a span says nothing about what is logged outside of spans. -/
structure LogDirective where
  /-- The target that the directive speaks of; all of them if it is empty. -/
  target : String := ""
  level : LogLevel := fullLevel
  inSpan : Bool := false
  deriving Repr, DecidableEq

namespace LogDirective

/-- Whether a directive may begin with a character. -/
def isFirst (c : Char) : Bool :=
  c == '-' || c == ':' || c == '_' || c.isAlphanum || 0x80 ≤ c.toNat

/-- The level after an equals sign, where no name means everything. -/
def levelAfter? (s : List Char) : Option LogLevel :=
  if s.isEmpty then some fullLevel else levelOf? (String.ofList s)

/-- Reads what follows the brackets of a span. -/
def afterSpan? (target : List Char) : List Char → Option LogDirective
  | [] => some { target := String.ofList target, inSpan := true }
  | '=' :: level =>
    (levelAfter? level).map fun level => { target := String.ofList target, level, inSpan := true }
  | _ => none

/-- Reads a directive. -/
def ofChars? (s : List Char) : Option LogDirective :=
  if !(s.head?.any fun c => isFirst c || c == '[') then none
  else
    let name := s.takeWhile fun c => c != '=' && c != '['
    match s.dropWhile fun c => c != '=' && c != '[' with
    | [] =>
      match levelOf? (String.ofList name) with
      | some level => some { level }
      | none => some { target := String.ofList name }
    | '=' :: level =>
      (levelAfter? level).map fun level => { target := String.ofList name, level }
    | _ :: span =>
      if span.contains ']' then afterSpan? name ((span.dropWhile (· != ']')).drop 1) else none

end LogDirective

/-- The target of what the program itself logs. -/
def ownTarget : String := "autolabel"

/-- The directive that decides about the program's own target. -/
def deciding? (directives : List LogDirective) : Option LogDirective :=
  directives.foldl (fun best d =>
    if !d.inSpan && d.target.toList.isPrefixOf ownTarget.toList
        && best.all fun (b : LogDirective) => b.target.length ≤ d.target.length
    then some d else best) none

/-- Whether errors are logged under a filter. A filter that is not well formed counts as none, and
without a filter they are. -/
def showsErrors (filter : Option String) : Bool :=
  match filter with
  | none => true
  | some text =>
    let parts := (text.toList.splitOn ',').filter fun s => !s.isEmpty
    match parts.mapM LogDirective.ofChars? with
    | none => true
    | some directives => (deciding? directives).any fun d => 1 ≤ d.level

end PathLabels.Cli
