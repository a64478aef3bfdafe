import DocWire.Environment
import DocWire.Failure
import DocWire.Text.Blank
import DocWire.Value.Native

/-!
# Settings

The settings of a client come from three places: the environment goes before the settings files,
and these go before the defaults. Of several files the first one that gives a setting counts. What
comes out in the end has to be usable; what was passed over does not matter.
-/
set_option autoImplicit false

namespace DocWire

structure Settings where
  serverUrl : String
  database : String
  timeoutMs : Nat
  logDir : Option String
  logLevel : Option String
deriving DecidableEq, Repr, Inhabited

structure FileSettings where
  serverUrl : Option String
  database : Option String
  timeoutMs : Option Nat
  logDir : Option String
  logLevel : Option String
deriving DecidableEq, Repr, Inhabited

namespace FileSettings

def empty : FileSettings := ⟨none, none, none, none, none⟩

/-- Takes from another file what this one does not give. -/
def completedBy (file other : FileSettings) : FileSettings where
  serverUrl := file.serverUrl.or other.serverUrl
  database := file.database.or other.database
  timeoutMs := file.timeoutMs.or other.timeoutMs
  logDir := file.logDir.or other.logDir
  logLevel := file.logLevel.or other.logLevel

def combine (files : List FileSettings) : FileSettings := files.foldl completedBy empty

end FileSettings

namespace Settings

def defaults : Settings := ⟨"localhost:8081", "default", 30000, none, none⟩

/-- Puts the settings of files over others. -/
def withFile (s : Settings) (file : FileSettings) : Settings where
  serverUrl := file.serverUrl.getD s.serverUrl
  database := file.database.getD s.database
  timeoutMs := file.timeoutMs.getD s.timeoutMs
  logDir := file.logDir.or s.logDir
  logLevel := file.logLevel.or s.logLevel

def withServerUrl (s : Settings) (url? : Option String) : Settings :=
  { s with serverUrl := url?.getD s.serverUrl }

def withDatabase (s : Settings) (database? : Option String) : Settings :=
  { s with database := database?.getD s.database }

/-- Puts the environment over settings, one variable after another. A time-out that is no number is
an error, and comes with the settings as they are at that point. -/
def applyEnvironment (env : Environment) (s : Settings) : Except Failure Unit × Settings :=
  let s := (s.withServerUrl (env "NEXUSRPC_URL")).withDatabase (env "NEXUSRPC_DATABASE")
  match env "NEXUSRPC_TIMEOUT_MS" with
  | none => (.ok (), s)
  | some text =>
    match IntegerWidth.unsigned64.read? text with
    | some n => (.ok (), { s with timeoutMs := n.toNat })
    | none => (.error (.config (.timeoutNotInteger text)), s)

def validate (s : Settings) : Except Failure Unit :=
  if isBlank s.serverUrl then .error (.config .serverUrlEmpty)
  else if isBlank s.database then .error (.config .databaseEmpty)
  else if s.timeoutMs = 0 then .error (.config .timeoutZero)
  else .ok ()

def underEnvironment (env : Environment) (s : Settings) : Except Failure Settings := do
  let (outcome, s) := s.applyEnvironment env
  outcome
  .ok s

/-- The settings from files, first come first, and the environment. -/
def resolve (files : List FileSettings) (env : Environment) : Except Failure Settings := do
  let s ← (defaults.withFile (FileSettings.combine files)).underEnvironment env
  s.validate
  .ok s

end Settings
end DocWire
