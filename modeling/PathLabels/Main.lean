import PathLabels.Cli.Execution

/-!
# The program

The command line on the system that it runs on. Files, the environment and the console are those of
the process. Git cannot be started and nothing can be sent from here, so a run that needs either
reports it as it reports any git that does not start and any server that does not answer.
-/

namespace PathLabels

/-- The fault of the system that an exception stands for. -/
def IoError.ofException : IO.Error → IoError
  | .noFileOrDirectory _ _ _ => .notFound
  | e => ⟨toString e⟩

/-- Runs an action of the system and catches its fault. -/
def attemptIO {α : Type} (action : IO α) : IO (Except IoError α) := do
  try return .ok (← action)
  catch e => return .error (IoError.ofException e)

/-- Writes at the end of a file. -/
def appendBytes (path : String) (bytes : List UInt8) : IO Unit := do
  let handle ← IO.FS.Handle.mk path .append
  handle.write ⟨bytes.toArray⟩

/-- All that is on standard input. -/
partial def readInput : IO (List UInt8) := do
  let stdin ← IO.getStdin
  if ← stdin.isTty then return []
  let rec loop (read : ByteArray) : IO ByteArray := do
    let more ← stdin.read 65536
    if more.isEmpty then return read else loop (read ++ more)
  return (← loop ByteArray.empty).toList

/-- The system that the process runs on. -/
def systemHost : Host IO where
  readFile path := attemptIO do return (← IO.FS.readBinFile path).toList
  appendFile path bytes := attemptIO (appendBytes path bytes)
  hasPath directory components := do
    return (← attemptIO (IO.FS.realPath (Path.join (directory :: components)))).toOption.isSome
  git _ := ⟨fun _ => return .error ⟨"starting programs is not supported"⟩⟩
  network := {
    clock := do
      let now ← IO.monoNanosNow
      return ⟨now, now⟩
    send := fun request => return .error (.noResponse request.url.text)
    wait := fun d => IO.sleep (UInt32.ofNat d.millis) }
  input := readInput
  print text := do (← IO.getStdout).putStr text
  logError line := do (← IO.getStderr).putStrLn line

/-- The values of the variables that the command line looks at. -/
def readEnvironment : IO (String → Option String) := do
  let names := ["PR_NUMBER", "AUTOLABEL_RULES", "GITHUB_REPOSITORY", "GITHUB_TOKEN",
    "GITHUB_API_URL", "AUTOLABEL_BASE_REF", "GITHUB_OUTPUT", "RUST_LOG"]
  let values ← names.mapM fun name => return (name, ← IO.getEnv name)
  return fun name => (values.lookup name).join

end PathLabels

/-- Runs the command line of the process. -/
def main (args : List String) : IO UInt32 := do
  let code ← PathLabels.Cli.run PathLabels.systemHost (← PathLabels.readEnvironment) args
  return UInt32.ofNat code.toNat
