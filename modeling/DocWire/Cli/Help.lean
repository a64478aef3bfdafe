import DocWire.Cli.Arguments

/-!
# Help texts
-/
set_option autoImplicit false

namespace DocWire.Cli

def programName : String := "nexusrpc"

def version : String := "0.1.0"

def purpose : Topic → String
  | .program => "Inspect nexusrpc wire payloads"
  | .encodeFilter => "Print the wire form of a filter"
  | .encodeUpdate => "Print the wire form of an update"
  | .encodeFields => "Print the wire form of a projection"
  | .showConfig => "Print the resolved client configuration as TOML"
  | .help => "Print this message or the help of the given subcommand(s)"

def textHelp (topic : Topic) (name label : String) : String :=
  purpose topic ++ "\n\nUsage: " ++ programName ++ " " ++ name ++ " <JSON>\n\nArguments:\n  <JSON>  " ++
    label ++ "\n\nOptions:\n  -h, --help  Print help\n"

def helpText : Topic → String
  | .program =>
    purpose .program ++ "\n\nUsage: " ++ programName ++ " <COMMAND>\n\nCommands:\n" ++
      "  encode-filter  " ++ purpose .encodeFilter ++ "\n" ++
      "  encode-update  " ++ purpose .encodeUpdate ++ "\n" ++
      "  encode-fields  " ++ purpose .encodeFields ++ "\n" ++
      "  show-config    " ++ purpose .showConfig ++ "\n" ++
      "  help           " ++ purpose .help ++ "\n\n" ++
      "Options:\n  -h, --help     Print help\n  -V, --version  Print version\n"
  | .encodeFilter =>
    textHelp .encodeFilter "encode-filter"
      ("Filter JSON (e.g., \x7b\"op\":\"or\",\"selectorFilters\":" ++
        "[\x7b\"fields\":\x7b\"a\":1\x7d\x7d]\x7d)")
  | .encodeUpdate =>
    textHelp .encodeUpdate "encode-update"
      "Update JSON (e.g., \x7b\"$set\":\x7b\"address\":\x7b\"city\":\"SF\"\x7d\x7d\x7d)"
  | .encodeFields =>
    textHelp .encodeFields "encode-fields"
      "Read fields JSON (e.g., \x7b\"include\":[\"name\",\"age\"]\x7d)"
  | .showConfig =>
    purpose .showConfig ++ "\n\nUsage: " ++ programName ++ " show-config [OPTIONS]\n\nOptions:\n" ++
      "      --config <CONFIG>  Path to a config file (TOML)\n" ++
      "  -h, --help             Print help\n"
  | .help =>
    purpose .help ++ "\n\nUsage: " ++ programName ++ " help [COMMAND]...\n\nArguments:\n" ++
      "  [COMMAND]...  Print help for the subcommand(s)\n"

def versionText : String := programName ++ " " ++ version ++ "\n"

end DocWire.Cli
