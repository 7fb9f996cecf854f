import PathLabels.Decision
import PathLabels.Json.Value
import PathLabels.Text.Quoted

/-!
# Matches for readers

Matches and decisions as lines for a person, and as JSON for a program. The members of each object
are in ascending order of their names.
-/

namespace PathLabels

namespace Specificity

def json (s : Specificity) : Json.Value :=
  .object [("chars", .ofNat s.chars), ("components", .ofNat s.components)]

end Specificity

namespace MatchResult

/-- A line for each label that matches. -/
def lines (r : MatchResult) : List String :=
  r.labels.entries.map fun e => s!"{e.fst}: {e.snd.files.length} file(s)"

def json (r : MatchResult) : Json.Value :=
  let found (e : String × LabelMatch) : String × Json.Value :=
    (e.1, .object [("files", .ofStrings e.2.files), ("specificity", e.2.specificity.json)])
  .object [("ignored", .ofStrings r.ignored), ("labels", .object (r.labels.entries.map found)),
    ("unmatched", .ofStrings r.unmatched)]

end MatchResult

namespace Decision

/-- The line for a decision. -/
def line (d : Decision) : String := s!"decision ({d.policy.name}): {Text.quotedList d.labels}"

def json (d : Decision) : Json.Value :=
  .object [("labels", .ofStrings d.labels), ("policy", .string d.policy.name)]

/-- A decision with the matches that it comes from. -/
def jsonWith (d : Decision) (r : MatchResult) : Json.Value :=
  .object [("decision", d.json), ("matches", r.json)]

end Decision

end PathLabels
