import DocWire.Failure
import DocWire.Json.Reader
import DocWire.Json.Writer
import DocWire.Value.Basic

/-!
# Field values as JSON values

The JSON value that stands for a field value inside a document. Integers keep all their digits, and a
wide one is read as JSON from its own text. Instants and identifiers become their texts, and only
numbers that are not finite have no form.
-/
set_option autoImplicit false

namespace DocWire.Value

mutual
def toJson : Value → Except Failure Json
  | null => .ok .null
  | bool b => .ok (.bool b)
  | int n => .ok (.ofInt n.toInt)
  | uint n => .ok (.ofInt n.toNat)
  | wide n => (Json.ofText n.text).mapError Failure.json
  | float x => if x.isFinite then .ok (.number x.text) else .error (.value (.notFinite x))
  | string s => .ok (.string s)
  | instant t => .ok (.string t.text)
  | uuid u => .ok (.string u.text)
  | array items => do .ok (.array (← toJsonItems items))
  | object fields => do .ok (.object (Entries.ofList (← toJsonFields fields)))

def toJsonItems : List Value → Except Failure (List Json)
  | [] => .ok []
  | item :: rest => do
    let json ← toJson item
    .ok (json :: (← toJsonItems rest))

def toJsonFields : List (String × Value) → Except Failure (List (String × Json))
  | [] => .ok []
  | (name, value) :: rest => do
    let json ← toJson value
    .ok ((name, json) :: (← toJsonFields rest))
end

end DocWire.Value
