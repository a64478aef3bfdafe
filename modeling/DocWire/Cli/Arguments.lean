/-!
# Command line arguments

The program has four commands: three that print the wire form of a filter, an update or a projection
given as one argument, and one that prints the settings. Arguments are understood from left to
right, and the first that cannot be, or that asks for help, ends the matter. After two dashes alone
every argument stands for itself.
-/
set_option autoImplicit false

namespace DocWire.Cli

inductive Command where
  | encodeFilter (json : String)
  | encodeUpdate (json : String)
  | encodeFields (json : String)
  | showConfig (path? : Option String)
deriving DecidableEq, Repr

inductive Topic where
  | program
  | encodeFilter
  | encodeUpdate
  | encodeFields
  | showConfig
  | help
deriving DecidableEq, Repr

/-- What arguments come to. -/
inductive Request where
  | run (command : Command)
  | help (topic : Topic)
  | version
  | misuse
deriving DecidableEq, Repr

def topic? (name : String) : Option Topic :=
  if name = "encode-filter" then some .encodeFilter
  else if name = "encode-update" then some .encodeUpdate
  else if name = "encode-fields" then some .encodeFields
  else if name = "show-config" then some .showConfig
  else if name = "help" then some .help
  else none

/-- Whether an argument is meant as an option: it starts with a dash, and is more than that. -/
def isOption (arg : String) : Bool :=
  match arg.toList with
  | '-' :: _ :: _ => true
  | _ => false

def asksHelp (arg : String) : Bool :=
  arg = "--help" || (arg.toList.take 2 = ['-', 'h'])

def asksVersion (arg : String) : Bool :=
  arg = "--version" || (arg.toList.take 2 = ['-', 'V'])

/-- Understands the arguments of a command that takes one text. `plain` holds after two dashes. -/
def textArgument (topic : Topic) (command : String → Command) (plain : Bool) :
    Option String → List String → Request
  | none, [] => .misuse
  | some text, [] => .run (command text)
  | text?, arg :: rest =>
    if !plain && arg = "--" then textArgument topic command true text? rest
    else if !plain && asksHelp arg then .help topic
    else if (!plain && isOption arg) || text?.isSome then .misuse
    else textArgument topic command plain (some arg) rest

/-- The path of an option written in one piece with its value. -/
def attachedPath? (arg : String) : Option String :=
  if "--config=".toList.isPrefixOf arg.toList then
    some (String.ofList (arg.toList.drop "--config=".length))
  else none

/-- Understands the arguments of the command that prints the settings. -/
def configArguments (path? : Option String) : List String → Request
  | [] => .run (.showConfig path?)
  | ["--"] => .run (.showConfig path?)
  | arg :: rest =>
    if asksHelp arg then .help .showConfig
    else
      match attachedPath? arg with
      | some path =>
        if path = "" ∨ path?.isSome then .misuse else configArguments (some path) rest
      | none =>
        if arg = "--config" then
          match rest with
          | [] => .misuse
          | path :: rest =>
            if path = "" ∨ isOption path ∨ path?.isSome then .misuse
            else configArguments (some path) rest
        else .misuse

def helpArguments : List String → Request
  | [] => .help .program
  | [name] =>
    match topic? name with
    | some topic => .help topic
    | none => .misuse
  | _ => .misuse

def commandArguments : Topic → List String → Request
  | .encodeFilter, args => textArgument .encodeFilter .encodeFilter false none args
  | .encodeUpdate, args => textArgument .encodeUpdate .encodeUpdate false none args
  | .encodeFields, args => textArgument .encodeFields .encodeFields false none args
  | .showConfig, args => configArguments none args
  | .help, args => helpArguments args
  | .program, _ => .help .program

def understand : List String → Request
  | [] => .misuse
  | arg :: rest =>
    if asksHelp arg then .help .program
    else if asksVersion arg then .version
    else
      match topic? arg with
      | some topic => commandArguments topic rest
      | none => .misuse

example : understand ["encode-filter", "--", "-5"] = .run (.encodeFilter "-5") := by decide +kernel
example : understand ["encode-filter", "-5"] = .misuse := by decide +kernel
example : understand ["show-config", "--config=a"] = .run (.showConfig (some "a")) := by
  decide +kernel

end DocWire.Cli
