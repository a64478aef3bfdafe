import DocWire.Cli.Help
import DocWire.Filter.Source
import DocWire.Filter.Wire
import DocWire.Log.Files
import DocWire.Projection.Source
import DocWire.Settings.Search
import DocWire.Update.Source
import DocWire.Update.Wire

/-!
# Running a command

A command prints one text or fails. What it reads, the environment and the settings files, is given
to it. Logging is set up before anything else, where the environment asks for it.
-/
set_option autoImplicit false

namespace DocWire.Cli

/-- What surrounds the program. What a reader finds at a path may depend on what has been logged. -/
structure Surroundings where
  env : Environment
  workingDirectory : String
  content : List LogEvent → String → PathContent

def Command.run (around : Surroundings) : Command → Except Failure String × List LogEvent
  | encodeFilter json => (do (← Filter.parse json).encode, [])
  | encodeUpdate json => (do (← Update.parse json).encode, [])
  | encodeFields json => (do (← Projection.parse json).encode, [])
  | showConfig path? =>
    let (settings, events) :=
      Settings.load path? around.env around.workingDirectory around.content
    (settings.map Settings.text, events)

/-- What the program answers. -/
inductive Outcome where
  | printed (text : String)
  | failed (fault : Failure)
  | misused
deriving DecidableEq, Repr

namespace Outcome

def code : Outcome → Nat
  | printed _ => 0
  | failed _ => 1
  | misused => 2

def output : Outcome → String
  | printed text => text
  | failed _ => ""
  | misused => ""

def errors : Outcome → String
  | printed _ => ""
  | failed fault => "error: " ++ fault.message ++ "\n"
  | misused => helpText .program

end Outcome

def Request.answer (around : Surroundings) : Request → Outcome × List LogEvent
  | run command =>
    match command.run around with
    | (.ok text, events) => (.printed (text ++ "\n"), events)
    | (.error fault, events) => (.failed fault, events)
  | help topic => (.printed (helpText topic), [])
  | version => (.printed versionText, [])
  | misuse => (.misused, [])

/-- Whether the environment asks for logging, and where and from which level on. -/
def logRequest? (env : Environment) : Option (String × Option String) :=
  (env "NEXUSRPC_LOG_DIR").map fun directory => (directory, env "NEXUSRPC_LOG_LEVEL")

/-- What the program says on standard error where logging cannot be set up. It goes on without. -/
def loggingDisabled (reason : String) : String := "logging disabled: " ++ reason ++ "\n"

/-- Sets logging up where the environment asks for it, with what there is to say about it. -/
def setUpLogging (env : Environment) (state : LogState) : String × LogState :=
  match logRequest? env with
  | none => ("", state)
  | some (directory, level?) =>
    match state.configure env (some directory) level? with
    | (.ok (), state) => ("", state)
    | (.error fault, state) => (loggingDisabled fault.message, state)

end DocWire.Cli
