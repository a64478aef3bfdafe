import DocWire.Calendar.Instant
import DocWire.Cli.Run
import DocWire.Log.Files
import Std.Time.DateTime.Timestamp

/-!
# The command line program

Fetches what a command reads, runs it, and prints and logs what comes of it.
-/
set_option autoImplicit false

namespace DocWire.Cli

def variableNames : List String :=
  ["NEXUSRPC_URL", "NEXUSRPC_DATABASE", "NEXUSRPC_TIMEOUT_MS", "NEXUSRPC_CONFIG",
    "NEXUSRPC_LOG_DIR", "NEXUSRPC_LOG_LEVEL", "XDG_CONFIG_HOME", "HOME"]

/-- Fetches those variables, and the ones to which the path of the log directory refers. -/
def fetchEnvironment : IO Environment := do
  let directory := (← IO.getEnv "NEXUSRPC_LOG_DIR").getD ""
  let found ← (variableNames ++ Environment.names directory.toList).filterMapM fun name => do
    return (← IO.getEnv name).map fun value => (name, value)
  return fun name => found.lookup name

def fetchContent (path : String) : IO PathContent := do
  try
    return .file (← IO.FS.readBinFile path)
  catch e =>
    match e with
    | .noFileOrDirectory _ _ _ => return .missing
    | _ => return .unreadable

/-- The paths of the settings files that a request needs. -/
def neededPaths (env : Environment) (workingDirectory : String) : Request → List String
  | .run (.showConfig path?) => Settings.searchPaths path? env workingDirectory
  | _ => []

/-- The directories that lead to a file, as its path writes them. -/
def parentText (path : String) : String :=
  String.intercalate "/" (path.splitOn "/").dropLast

def logPath (env : Environment) (directory name : String) : String :=
  env.expand (DiskPath.join directory name)

/-- The wording of a failure of the system, in the words of the library where it has some. -/
def reason : IO.Error → String
  | .noFileOrDirectory _ _ _ => DiskFault.absent.message
  | .alreadyExists _ _ _ => DiskFault.taken.message
  | .inappropriateType _ 20 _ => DiskFault.notDirectory.message
  | .inappropriateType _ 21 _ => DiskFault.isDirectory.message
  | .invalidArgument _ 36 _ => DiskFault.nameTooLong.message
  | other => toString other

/-- Creates the log directory and opens both files, and returns whether that could be done. -/
def openLogs (env : Environment) (directory : String) : IO Bool := do
  try
    if directory ≠ "" then IO.FS.createDirAll directory
    for name in [LogState.appName, LogState.wireName] do
      let path := logPath env directory name
      let parent := parentText path
      if parent ≠ "" then IO.FS.createDirAll parent
      IO.FS.withFile path .append fun _ => pure ()
    return true
  catch e =>
    IO.eprint (loggingDisabled (reason e))
    return false

/-- What logging the environment asks for, where it can be set up. -/
def openLogging (env : Environment) : IO (Option (String × LogThreshold)) := do
  match logRequest? env with
  | none => return none
  | some (directory, level?) =>
    if ← openLogs env directory then
      return some (directory, LogThreshold.ofText (level?.getD "info"))
    else return none

def isSameFile (a b : String) : IO Bool := do
  try
    return (← IO.FS.realPath a).toString = (← IO.FS.realPath b).toString
  catch _ => return false

/-- Fetches what surrounds the program. A settings file that is the log as well grows while the
program runs. -/
def fetchSurroundings (env : Environment) (logging? : Option (String × LogThreshold))
    (request : Request) : IO Surroundings := do
  let workingDirectory := (← IO.currentDir).toString
  let contents ← (neededPaths env workingDirectory request).mapM fun path => do
    let growth : List LogEvent → ByteArray ← match logging? with
      | none => pure fun _ => ByteArray.empty
      | some (directory, threshold) =>
        if ← isSameFile path (logPath env directory LogState.appName) then
          pure fun logged => (String.join ((logged.filter fun event =>
            threshold.admits event.level).map fun event => event.record.line ++ "\n")).toUTF8
        else pure fun _ => ByteArray.empty
    return (path, ← fetchContent path, growth)
  return ⟨env, workingDirectory, fun logged path =>
    match contents.lookup path with
    | some (.file bytes, growth) => .file (bytes ++ growth logged)
    | some (content, _) => content
    | none => .missing⟩

def writeRecord (env : Environment) (directory : String) (record : LogRecord) : IO Unit := do
  let now := (← Std.Time.Timestamp.now).toMillisecondsSinceUnixEpoch.val
  let stamp := ((Instant.ofMillis? now).map Instant.stamp).getD ""
  let name := if record.isWire then LogState.wireName else LogState.appName
  IO.FS.withFile (logPath env directory name) .append fun file =>
    file.putStrLn (stamp ++ " " ++ record.line)

end DocWire.Cli

def main (args : List String) : IO UInt32 := do
  let env ← DocWire.Cli.fetchEnvironment
  let logging? ← DocWire.Cli.openLogging env
  let request := DocWire.Cli.understand args
  let (outcome, events) := request.answer (← DocWire.Cli.fetchSurroundings env logging? request)
  if let some (directory, threshold) := logging? then
    for event in events do
      if threshold.admits event.level then
        DocWire.Cli.writeRecord env directory event.record
  IO.print outcome.output
  IO.eprint outcome.errors
  return UInt32.ofNat outcome.code
