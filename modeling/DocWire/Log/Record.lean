/-!
# Log records

A record has a level, the target that it is filed under and a message. Records of requests are filed
under their own target, apart from all others.
-/
set_option autoImplicit false

namespace DocWire

inductive LogLevel where
  | error
  | warn
  | info
  | debug
  | trace
deriving DecidableEq, Repr, Inhabited

namespace LogLevel

def name : LogLevel → String
  | error => "error"
  | warn => "warn"
  | info => "info"
  | debug => "debug"
  | trace => "trace"

/-- Less urgent levels have higher ranks. -/
def rank : LogLevel → Nat
  | error => 0
  | warn => 1
  | info => 2
  | debug => 3
  | trace => 4

def all : List LogLevel := [error, warn, info, debug, trace]

def ofName? (s : String) : Option LogLevel := all.find? fun level => level.name = s

def label (level : LogLevel) : String := String.ofList (level.name.toList.map Char.toUpper)

end LogLevel

/-- The least urgent level that is logged, if anything is. -/
abbrev LogThreshold := Option LogLevel

namespace LogThreshold

/-- Reads a threshold; ASCII case does not matter, and whatever is no level means `info`. -/
def ofText (text : String) : LogThreshold :=
  let name := String.ofList (text.toList.map Char.toLower)
  if name = "off" then none else some ((LogLevel.ofName? name).getD .info)

def admits : LogThreshold → LogLevel → Bool
  | none, _ => false
  | some limit, level => level.rank ≤ limit.rank

end LogThreshold

structure LogRecord where
  level : LogLevel
  target : String
  message : String
deriving DecidableEq, Repr, Inhabited

namespace LogRecord

def wireTarget : String := "nexusrpc::wire"

/-- Whether a record is filed under the request target or below it. -/
def isWire (r : LogRecord) : Bool :=
  r.target = wireTarget || (wireTarget ++ "::").toList.isPrefixOf r.target.toList

def line (r : LogRecord) : String :=
  "[" ++ r.level.label ++ "] " ++ r.target ++ " - " ++ r.message

end LogRecord
end DocWire
