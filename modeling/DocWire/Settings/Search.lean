import DocWire.Disk.Path
import DocWire.Log.Event
import DocWire.Settings.Document

/-!
# Settings files

Settings files are looked for in four places: the one that the user names, the one that the
environment names, and a file of fixed name in the user's configuration directory and in the working
directory. The one that the user names has to be there. Every file that is read is logged.
-/
set_option autoImplicit false

namespace DocWire

namespace Settings

def fileName : String := "nexusrpc.toml"

/-- The user's configuration directory: the one that the environment names by an absolute path, or
the usual one in the home directory. -/
def configDirectory? (env : Environment) : Option String :=
  match (env "XDG_CONFIG_HOME").filter fun path => path.toList.head? = some '/' with
  | some path => some path
  | none => ((env "HOME").filter (· ≠ "")).map fun home => DiskPath.join home ".config"

/-- The places to look in, first come first. -/
def searchPaths (explicit? : Option String) (env : Environment) (workingDirectory : String) :
    List String :=
  explicit?.toList ++ (env "NEXUSRPC_CONFIG").toList ++
    ((configDirectory? env).map fun directory => DiskPath.join directory fileName).toList ++
    [DiskPath.join workingDirectory fileName]

def readFile (path : String) : PathContent → Except Failure (Option FileSettings)
  | .missing => .ok none
  | .unreadable => .error .io
  | .file bytes =>
    match String.fromUTF8? bytes with
    | none => .error .io
    | some text =>
      match FileSettings.ofText? text with
      | some file => .ok (some file)
      | none => .error (.config (.fileSyntax path))

/-- Reads the files that are there, up to the first that cannot be read, and logs those read. What
stands in a file is looked up by what has been logged before, as the file may be the log itself. -/
def readFiles (content : List LogEvent → String → PathContent) (logged : List LogEvent) :
    List String → Except Failure (List FileSettings) × List LogEvent
  | [] => (.ok [], logged)
  | path :: rest =>
    match readFile path (content logged path) with
    | .error e => (.error e, logged)
    | .ok none => readFiles content logged rest
    | .ok (some file) =>
      let (files, events) := readFiles content (logged ++ [.settingsRead path]) rest
      (files.map (file :: ·), events)

def load (explicit? : Option String) (env : Environment) (workingDirectory : String)
    (content : List LogEvent → String → PathContent) : Except Failure Settings × List LogEvent :=
  let missing? := explicit?.filter fun path =>
    match content [] path with
    | .missing => true
    | _ => false
  match missing? with
  | some path => (.error (.config (.fileMissing path)), [])
  | none =>
    let (files, events) := readFiles content [] (searchPaths explicit? env workingDirectory)
    (do resolve (← files) env, events)

end Settings
end DocWire
