import DocWire.Failure
import DocWire.Json.Basic
import DocWire.Value.Native

/-!
# Field values from JSON

Every JSON value is a field value, save for numbers past the range of doubles. A number written
with digits alone is an integer, whatever its width; any other number is the nearest double.
-/
set_option autoImplicit false

namespace DocWire.Value

def ofNumber (text : String) : Except Failure Value :=
  match DocWire.integer? text.toList with
  | some n => .ok (ofInteger n)
  | none =>
    match (Binary64.ofText? text).filter Binary64.isFinite with
    | some x => .ok (float x)
    | none => .error (.value (.numberOutOfRange text))

mutual
def ofJson : Json → Except Failure Value
  | .null => .ok null
  | .bool b => .ok (bool b)
  | .number text => ofNumber text
  | .string s => .ok (string s)
  | .array items => do .ok (array (← ofJsonItems items))
  | .object members => do .ok (object (Entries.ofList (← ofJsonMembers members)))

def ofJsonItems : List Json → Except Failure (List Value)
  | [] => .ok []
  | item :: rest => do
    let value ← ofJson item
    .ok (value :: (← ofJsonItems rest))

def ofJsonMembers : List (String × Json) → Except Failure (List (String × Value))
  | [] => .ok []
  | (name, member) :: rest => do
    let value ← ofJson member
    .ok ((name, value) :: (← ofJsonMembers rest))
end

end DocWire.Value

namespace DocWire

def Fields.ofJson (members : Entries Json) : Except Failure Fields := do
  .ok (Entries.ofList (← Value.ofJsonMembers members))

end DocWire
