import PathLabels.FileTree
import PathLabels.Git.Script
import PathLabels.Host.Basic
import PathLabels.Http.Script

/-!
# Hosts in memory

A world is a host whose files are a tree, whose git and network follow scripts, and whose console
is a pair of texts. It writes down the starts of git and the requests in the order in which they
happen, so their order can be spoken about.
-/

namespace PathLabels

/-- Something that reaches beyond a program. -/
inductive Event where
  /-- Git has been run with arguments. -/
  | git (args : List String)
  /-- A request has been sent. -/
  | request (r : Http.Request)
  deriving Repr, DecidableEq

/-- Whether an event is a request. -/
def Event.isRequest : Event → Bool
  | .git _ => false
  | .request _ => true

/-- The state of a host in memory. -/
structure World where
  tree : FileTree := .empty
  /-- The directory in which relative paths are read. -/
  workDir : List String := []
  git : GitScript := {}
  network : Http.NetworkScript := {}
  /-- What is on standard input. -/
  input : List UInt8 := []
  /-- What has been printed. -/
  printed : String := ""
  /-- What has been logged, one text for each line. -/
  errors : List String := []
  /-- The starts of git and the requests, in order. -/
  events : List Event := []

namespace World

/-- Runs git in a directory. A git that does not start is no event. -/
def runGit (w : World) (directory : String) (args : List String) :
    Except IoError GitOutput × World :=
  match w.tree.resolveDirectory w.workDir directory with
  | .error e => (.error e, w)
  | .ok _ =>
    match w.git.run args with
    | (.error e, git) => (.error e, { w with git })
    | (.ok output, git) => (.ok output, { w with git, events := w.events ++ [.git args] })

/-- Sends a request. -/
def send (w : World) (request : Http.Request) : Except HttpFault Http.Response × World :=
  let (answer, network) := w.network.send request
  (answer, { w with network, events := w.events ++ [.request request] })

/-- Writes at the end of a file. -/
def appendFile (w : World) (path : String) (bytes : List UInt8) : Except IoError Unit × World :=
  match w.tree.append w.workDir path bytes with
  | .error e => (.error e, w)
  | .ok tree => (.ok (), { w with tree })

/-- Whether components lead from a directory to anything. -/
def hasPath (w : World) (directory : String) (components : List String) : Bool :=
  match w.tree.resolve w.workDir directory with
  | .error _ => false
  | .ok place => w.tree.leads place components

/-- The network of a world. -/
def networkOf : Http.Network (StateM World) where
  clock := fun w => (w.network.clock, w)
  send request := fun w => w.send request
  wait d := modify fun w =>
    { w with network := { w.network with clock := w.network.clock.advance d } }

/-- A world as a host. -/
def host : Host (StateM World) where
  readFile path := fun w => (w.tree.read w.workDir path, w)
  appendFile path bytes := fun w => w.appendFile path bytes
  hasPath directory components := fun w => (w.hasPath directory components, w)
  git directory := ⟨fun args w => w.runGit directory args⟩
  network := networkOf
  input := fun w => (w.input, { w with input := [] })
  print text := modify fun w => { w with printed := w.printed ++ text }
  logError message := modify fun w => { w with errors := w.errors ++ [message] }

end World

end PathLabels
