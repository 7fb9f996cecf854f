import PathLabels.Decision
import PathLabels.Host.Basic
import PathLabels.Json.Writing
import PathLabels.Text.Utf8

/-!
# Step outputs

A workflow step hands values on by writing lines of the form `name=value` at the end of a file. The
labels of a decision are written as a JSON array, in which no line ends, so one decision makes one
line.
-/

namespace PathLabels

namespace Decision

/-- The labels of a decision as a JSON array. -/
def labelsText (d : Decision) : String := (Json.Value.ofStrings d.labels).compact

/-- The line for a decision, with its end. -/
def outputLine (d : Decision) : String := "labels=" ++ d.labelsText ++ "\n"

/-- Writes the line for a decision at the end of a file. -/
def writeOutput {m : Type → Type} (host : Host m) (path : String) (d : Decision) :
    m (Except IoError Unit) :=
  host.appendFile path (Text.bytes d.outputLine)

end Decision

end PathLabels
