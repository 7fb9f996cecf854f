import PathLabels.Git.Basic
import PathLabels.Http.Message

/-!
# Hosts

A host is what a run needs of the system around it: files, git, a network and a console. Programs
are written for any host, so what they do can be stated for a host in memory and holds for the
system that they run on.
-/

namespace PathLabels

/-- The operations of a host, as programs of the monad `m`. -/
structure Host (m : Type → Type) where
  /-- The contents of a file. -/
  readFile : (path : String) → m (Except IoError (List UInt8))
  /-- Writes at the end of a file, which is made if it is not there. -/
  appendFile : (path : String) → List UInt8 → m (Except IoError Unit)
  /-- Whether components lead from a directory to anything. -/
  hasPath : (directory : String) → (components : List String) → m Bool
  /-- Git as it runs in a directory. -/
  git : (directory : String) → Git m
  network : Http.Network m
  /-- All of standard input; nothing if it is a terminal. -/
  input : m (List UInt8)
  /-- Writes to standard output. -/
  print : String → m Unit
  /-- Writes a line about something that went wrong to the log. -/
  logError : String → m Unit

end PathLabels
