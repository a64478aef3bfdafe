import DocWire.Settings.Basic
import DocWire.Toml.Reader
import DocWire.Toml.Writer

/-!
# Settings documents

A settings file gives settings under their names. No other key may stand in it, and the time-out is
a number of 64 bits.
-/
set_option autoImplicit false

namespace DocWire

namespace FileSettings

def read? (file : FileSettings) : String × Toml.Value → Option FileSettings
  | ("server_url", .string s) => some { file with serverUrl := some s }
  | ("database", .string s) => some { file with database := some s }
  | ("timeout_ms", .integer n) =>
    if IntegerWidth.unsigned64.Holds n then some { file with timeoutMs := some n.toNat } else none
  | ("log_dir", .string s) => some { file with logDir := some s }
  | ("log_level", .string s) => some { file with logLevel := some s }
  | _ => none

def ofText? (text : String) : Option FileSettings := do
  (← Toml.ofText? text).foldlM read? empty

end FileSettings

namespace Settings

/-- Reads a settings document on top of the defaults. -/
def ofText (text : String) : Except Failure Settings :=
  match FileSettings.ofText? text with
  | none => .error (.config .syntaxError)
  | some file => do
    let s := defaults.withFile file
    s.validate
    .ok s

/-- The document of settings; those without a value are left out. -/
def text (s : Settings) : String :=
  let optionalLine := fun (key : String) (value? : Option String) =>
    match value? with
    | some value => Toml.stringLine key value
    | none => []
  String.ofList (Toml.stringLine "server_url" s.serverUrl ++ Toml.stringLine "database" s.database ++
    Toml.numberLine "timeout_ms" s.timeoutMs ++ optionalLine "log_dir" s.logDir ++
    optionalLine "log_level" s.logLevel)

example : defaults.text =
    "server_url = \"localhost:8081\"\ndatabase = \"default\"\ntimeout_ms = 30000\n" := by
  decide +kernel

end Settings
end DocWire
