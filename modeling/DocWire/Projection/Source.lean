import DocWire.Json.Reader
import DocWire.Projection.Basic
import DocWire.Text.Diagnostic

/-!
# Projections from JSON source

A projection is written as an object with the lists `include` and `exclude`, or as an array of the
two lists in this order. A list that is left out is empty.
-/
set_option autoImplicit false

namespace DocWire.Projection

/-- What an error calls a value of the wrong type. -/
def found : Json → String
  | .null => "null"
  | .bool b => if b then "boolean `true`" else "boolean `false`"
  | .number _ => "number"
  | .string s => "string " ++ shown s
  | .array _ => "sequence"
  | .object _ => "map"

def wrongType (json : Json) (expected : String) : Failure :=
  .source (.projection (.wrongType (found json) expected))

def readItems : List Json → Except Failure (List String)
  | [] => .ok []
  | .string s :: rest => do .ok (s :: (← readItems rest))
  | other :: _ => .error (wrongType other "a string")

def readList : Json → Except Failure (List String)
  | .array items => readItems items
  | other => .error (wrongType other "a sequence")

def readMembers (p : Projection) : Entries Json → Except Failure Projection
  | [] => .ok p
  | (name, json) :: rest =>
    if name = "include" then do
      readMembers { p with included := ← readList json } rest
    else if name = "exclude" then do
      readMembers { p with excluded := ← readList json } rest
    else .error (.source (.projection (.unknownMember name)))

def ofJson : Json → Except Failure Projection
  | .object members => readMembers ⟨[], []⟩ members
  | .array [] => .ok ⟨[], []⟩
  | .array [first] => do .ok ⟨← readList first, []⟩
  | .array (first :: second :: rest) => do
    let p : Projection := ⟨← readList first, ← readList second⟩
    if rest.isEmpty then .ok p
    else .error (.source (.projection (.tooManyItems (rest.length + 2))))
  | other => .error (wrongType other "struct ReadFields")

def parse (text : String) : Except Failure Projection := do
  ofJson (← (Json.ofText text).mapError Failure.json)

end DocWire.Projection
