import DocWire.Disk.Path
import DocWire.Environment
import DocWire.Failure
import DocWire.Log.Record
import DocWire.Text.Lines

/-!
# Log files

Logging is set up for a directory: records of requests go to one file in it and all other records
to another. Setting it up makes the directory with those above it and opens both files; where that
cannot be done the earlier set-up stays in force, and so do directories and files made till then.
-/
set_option autoImplicit false

namespace DocWire

structure LogSetup where
  appFile : Location
  wireFile : Location
  threshold : LogThreshold
deriving DecidableEq, Repr

/-- The disk that a process sees and its logging, once it is set up. -/
structure LogState where
  disk : Disk
  setup? : Option LogSetup
deriving Inhabited

namespace LogState

def initial : LogState := ⟨⟨.directory [], []⟩, none⟩

def appName : String := "app.log"

def wireName : String := "wire.log"

/-- Makes a log directory; no text means the working directory. -/
def makeDirectory (disk : Disk) (directory : String) : Except DiskFault Unit × Disk :=
  if directory = "" then (.ok (), disk)
  else
    match DiskPath.ofText directory with
    | .error fault => (.error fault, disk)
    | .ok path => disk.createDirectories path

/-- Opens a log file. In its path the environment's variables are replaced, so it may lie elsewhere
than in the log directory. -/
def openLog (env : Environment) (disk : Disk) (directory name : String) :
    Except DiskFault Location × Disk :=
  match DiskPath.ofText (env.expand (DiskPath.join directory name)) with
  | .error fault => (.error fault, disk)
  | .ok path =>
    match disk.createDirectories path.parent with
    | (.error fault, disk) => (.error fault, disk)
    | (.ok (), disk) => disk.openFile path

/-- Makes the log directory and opens both files, up to the first fault. -/
def openLogs (env : Environment) (disk : Disk) (directory : String) (threshold : LogThreshold) :
    Except DiskFault LogSetup × Disk :=
  match makeDirectory disk directory with
  | (.error fault, disk) => (.error fault, disk)
  | (.ok (), disk) =>
    match openLog env disk directory appName with
    | (.error fault, disk) => (.error fault, disk)
    | (.ok appFile, disk) =>
      match openLog env disk directory wireName with
      | (.error fault, disk) => (.error fault, disk)
      | (.ok wireFile, disk) => (.ok ⟨appFile, wireFile, threshold⟩, disk)

/-- Sets logging up. No directory means the working directory, and no level means `info`. -/
def configure (state : LogState) (env : Environment) (directory? level? : Option String) :
    Except DiskFault Unit × LogState :=
  match openLogs env state.disk (directory?.getD "") (LogThreshold.ofText (level?.getD "info")) with
  | (.error fault, disk) => (.error fault, { state with disk := disk })
  | (.ok setup, disk) => (.ok (), ⟨disk, some setup⟩)

def configureFrom (state : LogState) (env : Environment) (directory? level? : Option String) :
    Except Failure Unit × LogState :=
  match directory? with
  | none => (.ok (), state)
  | some directory =>
    let (done, state) := state.configure env (some directory) level?
    (done.mapError fun _ => .config .logging, state)

/-- Whether logging can be set up from a file of its own: it can where there is no such file, as there
is nothing to do then, and not after logging was set up. -/
def canInstall (state : LogState) (fileExists : Bool) : Bool :=
  !fileExists || state.setup?.isNone

def log (state : LogState) (record : LogRecord) : LogState :=
  match state.setup? with
  | none => state
  | some setup =>
    if setup.threshold.admits record.level then
      let file := if record.isWire then setup.wireFile else setup.appFile
      { state with disk := state.disk.append file (record.line ++ "\n") }
    else state

def logAll (state : LogState) (records : List LogRecord) : LogState := records.foldl log state

/-- The lines of the log file of a name in a directory, if there is one. -/
def lines? (state : LogState) (directory name : String) : Option (List String) :=
  match state.disk.content (DiskPath.join directory name) with
  | .file bytes => (String.fromUTF8? bytes).map lines
  | _ => none

end LogState
end DocWire
