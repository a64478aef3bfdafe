import DocWire.Json.Reader
import DocWire.Update.Basic
import DocWire.Value.Source

/-!
# Updates from JSON source

An update is written as an object from operator keywords to objects of fields, and from `$unset` to
an array of names. The members are read in order, and of each the fields before the keyword.
-/
set_option autoImplicit false

namespace DocWire.Update

def readNames : List Json → Except Failure (List String)
  | [] => .ok []
  | .string s :: rest => do .ok (s :: (← readNames rest))
  | other :: _ => .error (.source (.unsetEntryKind other.kind))

def readMember (u : Update) (keyword : String) (json : Json) : Except Failure Update :=
  if keyword = unsetKeyword then
    match json with
    | .array items => do
      let names ← readNames items
      .ok { u with unset := u.unset ++ names }
    | _ => .error (.source .unsetKind)
  else
    match json with
    | .object members => do
      let fields ← Fields.ofJson members
      match UpdateOperator.ofKeyword? keyword with
      | some op => .ok (u.withGroup op fields)
      | none => .error (.source (.operatorUnknown keyword))
    | _ => .error (.source (.operatorFieldsKind keyword))

def readMembers (u : Update) : Entries Json → Except Failure Update
  | [] => .ok u
  | (keyword, json) :: rest => do readMembers (← u.readMember keyword json) rest

def ofJson : Json → Except Failure Update
  | .object members => readMembers empty members
  | _ => .error (.source .updateKind)

def parse (text : String) : Except Failure Update := do
  ofJson (← (Json.ofText text).mapError Failure.json)

end DocWire.Update
