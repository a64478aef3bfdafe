import DocWire.Failure
import DocWire.Value.Native

/-!
# Field values from BSON

BSON has more kinds of values than the wire. Those without a wire form are kept by the name of their
kind, and a value that holds one is no field value; neither is a date out of the calendar's range.
-/
set_option autoImplicit false

namespace DocWire

/-- A BSON value. Dates count milliseconds since 1970. -/
inductive Bson where
  | null
  | bool (b : Bool)
  | int32 (n : Int32)
  | int64 (n : Int64)
  | double (x : Binary64)
  | string (s : String)
  | datetime (millis : Int64)
  | array (items : List Bson)
  | document (members : List (String × Bson))
  | unsupported (kind : String)
deriving Inhabited

namespace Value

mutual
def ofBson : Bson → Except Failure Value
  | .null => .ok null
  | .bool b => .ok (bool b)
  | .int32 n => .ok (int (Int64.ofInt n.toInt))
  | .int64 n => .ok (int n)
  | .double x => .ok (float x)
  | .string s => .ok (string s)
  | .datetime millis =>
    match Instant.ofMillis? millis.toInt with
    | some t => .ok (instant t)
    | none => .error (.value (.instantOutOfRange millis.toInt))
  | .array items => do .ok (array (← ofBsonItems items))
  | .document members => do .ok (object (Entries.ofList (← ofBsonMembers members)))
  | .unsupported kind => .error (.value (.unsupportedKind kind))

def ofBsonItems : List Bson → Except Failure (List Value)
  | [] => .ok []
  | item :: rest => do
    let value ← ofBson item
    .ok (value :: (← ofBsonItems rest))

/-- The field values of a document's members, in order. -/
def ofBsonMembers : List (String × Bson) → Except Failure (List (String × Value))
  | [] => .ok []
  | (name, member) :: rest => do
    let value ← ofBson member
    .ok ((name, value) :: (← ofBsonMembers rest))
end

end Value
end DocWire
