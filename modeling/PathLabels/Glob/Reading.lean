import PathLabels.Glob.Token

/-!
# Reading globs

A glob is read character by character: `Scanner.step` takes one character, `Scanner.finish` ends
the text, and `Glob.ofString?` runs the two. Nothing is looked up ahead. What depends on the next
character is kept in the scanner's mode, so the end of one text can be compared with the middle of
a longer one state by state.

`**` crosses components only where it is a component of its own: at the beginning, at the end, or
between slashes. It then takes the slash before it into its token, and the one after it too.
Anywhere else it is read as `*` twice.
-/

namespace PathLabels.Glob

/-- What can be wrong with the text of a glob. -/
inductive Fault where
  /-- A `[` that no `]` closes. -/
  | unclosedClass
  /-- A range in a class whose ends are in the wrong order. -/
  | invalidRange (low high : Char)
  /-- A `}` without its brace. -/
  | unopenedAlternates
  /-- A brace that no `}` closes. -/
  | unclosedAlternates
  /-- A backslash at the end. -/
  | danglingEscape
  deriving Repr, DecidableEq

/-- The text shown for a fault. -/
def Fault.message : Fault → String
  | .unclosedClass => "unclosed character class; missing ']'"
  | .invalidRange low high =>
    String.ofList ("invalid range; '".toList ++ [low] ++ "' > '".toList ++ [high, '\''])
  | .unopenedAlternates =>
    "unopened alternate group; missing '\x7b' (maybe escape '\x7d' with '[\x7d]'?)"
  | .unclosedAlternates =>
    "unclosed alternate group; missing '\x7d' (maybe escape '\x7b' with '[\x7b]'?)"
  | .danglingEscape => "dangling '\\'"

/-- An alternation that is being read: the tokens before it, and its finished branches. -/
structure Group where
  before : List Token
  branches : List (List Token)

/-- A character class that is being read. -/
structure ClassText where
  negated : Bool
  ranges : List (Char × Char)
  /-- Whether the next character is the first one, where `]` and `-` stand for themselves. -/
  atStart : Bool
  /-- Whether a `-` after a character is waiting for the other end of its range. -/
  inRange : Bool

/-- What the scanner is in the middle of. -/
inductive Mode where
  /-- Between two tokens. -/
  | plain
  /-- After one `*`. -/
  | star
  /-- After `**`; `previous` is the character before the two. -/
  | stars (previous : Option Char)
  /-- After a backslash. -/
  | escape
  /-- After the bracket that opens a class. -/
  | classStart
  /-- Inside a class. -/
  | inClass (text : ClassText)

/-- The state of reading a glob. -/
structure Scanner where
  /-- The alternations that are open, the innermost first. -/
  groups : List Group := []
  /-- The tokens of the branch that is being read. -/
  tokens : List Token := []
  /-- The last character that was read. -/
  last : Option Char := none
  mode : Mode := .plain

namespace Scanner

/-- Adds a token to the branch that is being read. -/
def push (s : Scanner) (t : Token) : Scanner := { s with tokens := s.tokens ++ [t] }

/-- Opens an alternation. -/
def openGroup (s : Scanner) : Scanner :=
  { s with groups := ⟨s.tokens, []⟩ :: s.groups, tokens := [] }

/-- Ends the branch and the innermost alternation. -/
def closeGroup (s : Scanner) : Except Fault Scanner :=
  match s.groups with
  | [] => .error .unopenedAlternates
  | g :: groups =>
    .ok { s with groups, tokens := g.before ++ [.alternates (g.branches ++ [s.tokens])] }

/-- A comma separates branches within an alternation and stands for itself elsewhere. -/
def comma (s : Scanner) : Scanner :=
  match s.groups with
  | [] => s.push (.literal ',')
  | g :: groups =>
    { s with groups := { g with branches := g.branches ++ [s.tokens] } :: groups, tokens := [] }

/-- Reads a character that is not in the middle of anything. -/
def plainStep (s : Scanner) (c : Char) : Except Fault Scanner :=
  match c with
  | '?' => .ok { s.push .any with last := some c, mode := .plain }
  | '*' => .ok { s with mode := .star }
  | '[' => .ok { s with last := some c, mode := .classStart }
  | '\x7b' => .ok { s.openGroup with last := some c, mode := .plain }
  | '\x7d' => s.closeGroup.map fun s => { s with last := some c, mode := .plain }
  | ',' => .ok { s.comma with last := some c, mode := .plain }
  | '\\' => .ok { s with last := some c, mode := .escape }
  | c => .ok { s.push (.literal c) with last := some c, mode := .plain }

/-- Two stars that are not a component of their own. -/
def twoStars (s : Scanner) : Scanner :=
  { (s.push .star).push .star with last := some '*', mode := .plain }

/-- Whether two stars after `previous` may begin a component: after a slash, or after a comma or
a brace within an alternation. -/
def mayBeginComponent (s : Scanner) (previous : Option Char) : Bool :=
  previous == some '/' || (!s.groups.isEmpty && (previous == some ',' || previous == some '\x7b'))

/-- Puts a component of two stars in the place of the token before it, which is the slash that it
takes in. A component that crosses already takes in the next one. -/
def crossing (s : Scanner) (t : Token) : Scanner :=
  let kept := match s.tokens.getLast? with
    | some .leading => .leading
    | some .trailing => .trailing
    | _ => t
  { s with tokens := s.tokens.dropLast ++ [kept], last := some '*', mode := .plain }

/-- Reads the character after two stars. -/
def starsStep (s : Scanner) (previous : Option Char) (c : Char) : Except Fault Scanner :=
  if s.tokens.isEmpty then
    if c = '/' then .ok { s.push .leading with last := some c, mode := .plain }
    else s.twoStars.plainStep c
  else if !s.mayBeginComponent previous then s.twoStars.plainStep c
  else if c = '/' then .ok { s.crossing .between with last := some c }
  else if !s.groups.isEmpty && (c = ',' || c = '\x7d') then (s.crossing .trailing).plainStep c
  else s.twoStars.plainStep c

/-- Ends the text after two stars. -/
def starsEnd (s : Scanner) (previous : Option Char) : Scanner :=
  if s.tokens.isEmpty then s.push .leading
  else if s.mayBeginComponent previous then s.crossing .trailing
  else s.twoStars

end Scanner

namespace ClassText

/-- Closes the range that is waiting for its other end. -/
def closeRange (t : ClassText) (high : Char) : Except Fault ClassText :=
  match t.ranges.getLast? with
  | none => .ok { t with ranges := [(high, high)], atStart := false, inRange := false }
  | some (low, _) =>
    if high < low then .error (.invalidRange low high)
    else .ok { t with
      ranges := t.ranges.dropLast ++ [(low, high)], atStart := false, inRange := false }

/-- Adds a character that stands for itself. -/
def single (t : ClassText) (c : Char) : ClassText :=
  { t with ranges := t.ranges ++ [(c, c)], atStart := false, inRange := false }

/-- The class that the text writes; a `-` at its end stands for itself. -/
def token (t : ClassText) : Token :=
  .charClass t.negated (if t.inRange then t.ranges ++ [('-', '-')] else t.ranges)

end ClassText

namespace Scanner

/-- Reads a character of a class. -/
def classStep (s : Scanner) (t : ClassText) (c : Char) : Except Fault Scanner :=
  let next (t : ClassText) : Scanner := { s with last := some c, mode := .inClass t }
  if c = ']' && !t.atStart then
    .ok { s.push t.token with last := some c, mode := .plain }
  else if c = '-' && !t.atStart && !t.inRange then .ok (next { t with inRange := true })
  else if t.inRange then (t.closeRange c).map next
  else .ok (next (t.single c))

/-- Reads one character. -/
def step (s : Scanner) (c : Char) : Except Fault Scanner :=
  match s.mode with
  | .plain => s.plainStep c
  | .star =>
    if c = '*' then .ok { s with last := some c, mode := .stars s.last }
    else { s.push .star with last := some '*', mode := .plain }.plainStep c
  | .stars previous => s.starsStep previous c
  | .escape => .ok { s.push (.literal c) with last := some c, mode := .plain }
  | .classStart =>
    if c = '!' || c = '^' then
      .ok { s with last := some c, mode := .inClass ⟨true, [], true, false⟩ }
    else s.classStep ⟨false, [], true, false⟩ c
  | .inClass text => s.classStep text c

/-- Reads a text, character by character. -/
def run (s : Scanner) : List Char → Except Fault Scanner
  | [] => .ok s
  | c :: cs => s.step c >>= fun s => s.run cs

/-- The tokens once no alternation is open any more. -/
def close (s : Scanner) : Except Fault Glob :=
  if s.groups.isEmpty then .ok s.tokens else .error .unclosedAlternates

/-- Ends the text. -/
def finish (s : Scanner) : Except Fault Glob :=
  match s.mode with
  | .plain => s.close
  | .star => (s.push .star).close
  | .stars previous => (s.starsEnd previous).close
  | .escape => .error .danglingEscape
  | .classStart => .error .unclosedClass
  | .inClass _ => .error .unclosedClass

end Scanner

/-- Reads the text of a glob. -/
def ofChars? (text : List Char) : Except Fault Glob := do
  let s ← Scanner.run {} text
  s.finish

end PathLabels.Glob
