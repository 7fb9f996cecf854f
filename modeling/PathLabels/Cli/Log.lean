import PathLabels.Cli.Command
import PathLabels.Cli.LogFilter
import PathLabels.Host.Basic
import PathLabels.Json.Writing

/-!
# The log of the command line

Errors go to the log as lines for a person or as JSON. A message shows the control characters by
which a terminal is steered as escapes, so nothing that was read from a file or from git can act on
the terminal.
-/

namespace PathLabels.Cli

/-- How the log is written, and whether errors are written to it at all. -/
structure Log where
  format : LogFormat
  shows : Bool
  deriving Repr, DecidableEq

/-- A character of a message. -/
def shownChar (c : Char) : String :=
  if c = '\x1b' then "\\x1b"
  else if c = '\x07' then "\\x07"
  else if c = '\x08' then "\\x08"
  else if c = '\x0c' then "\\x0c"
  else if c = '\x7f' then "\\x7f"
  else if 0x80 ≤ c.toNat ∧ c.toNat ≤ 0x9F then
    "\\u\x7b" ++ String.ofList (Nat.toDigits 16 c.toNat) ++ "\x7d"
  else c.toString

/-- A message as it is shown. -/
def shownText (message : String) : String := String.join (message.toList.map shownChar)

/-- A line for an error: its message, and values by name. -/
def logLine (format : LogFormat) (message : String) (values : List (String × String)) : String :=
  match format with
  | .text =>
    let shown := values.map fun (name, value) => " " ++ name ++ "=" ++ value
    "ERROR " ++ ownTarget ++ ": " ++ shownText message ++ String.join shown
  | .json =>
    let fields := ("message", message) :: values
    (Json.Value.object [("level", .string "ERROR"),
      ("fields", .object (fields.map fun (name, value) => (name, .string value))),
      ("target", .string ownTarget)]).compact

namespace Log

variable {m : Type → Type} [Monad m]

/-- Logs an error. -/
def error (log : Log) (host : Host m) (message : String) (values : List (String × String) := []) :
    m Unit :=
  if log.shows then host.logError (logLine log.format message values) else pure ()

end Log

end PathLabels.Cli
