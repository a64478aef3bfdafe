import DocWire.Failure
import DocWire.Json.Push
import DocWire.Value.Basic

/-!
# Field values on the wire

The text of a value that stands at a field path, written behind the text so far. Selectors take no
arrays. A value may go down at most `pathDepthLimit` array or object steps; an error names the path of
the field, however deep it arises.
-/
set_option autoImplicit false

namespace DocWire

/-- What a value is sent for: to be compared with, or to be written. -/
inductive WireRole where
  | selector
  | update
deriving DecidableEq, Repr

namespace Value

mutual
/-- Writes a value that stands `depth` steps below the value of the field. -/
def push (role : WireRole) (path : String) (depth : Nat) (value : Value) (out : String) :
    Except Failure String :=
  if pathDepthLimit < depth then .error (.filter (.valueTooDeep path))
  else
    match value with
    | null => .ok (out ++ "null")
    | bool b => .ok (out ++ if b then "true" else "false")
    | int n => .ok (out ++ toString n.toInt)
    | uint n => .ok (out ++ toString n.toNat)
    | wide n => .ok (out ++ n.text)
    | float x =>
      if x.isFinite then .ok (out ++ x.text) else .error (.value (.fieldNotFinite path x))
    | string s => .ok (pushString s out)
    | instant t => .ok (pushString t.text out)
    | uuid u => .ok (pushString u.text out)
    | array items =>
      match role with
      | .selector => .error (.value (.arrayInSelector path))
      | .update => do
        let out ← pushItems role path (depth + 1) 0 items (out.push '[')
        .ok (out.push ']')
    | object fields => do
      let out ← pushFields role path (depth + 1) 0 fields (out.push '{')
      .ok (out.push '}')
termination_by structural value

def pushItems (role : WireRole) (path : String) (depth i : Nat) (items : List Value) (out : String) :
    Except Failure String :=
  match items with
  | [] => .ok out
  | item :: rest => do
    let out ← push role path depth item (pushComma i out)
    pushItems role path depth (i + 1) rest out
termination_by structural items

def pushFields (role : WireRole) (path : String) (depth i : Nat) (fields : List (String × Value))
    (out : String) : Except Failure String :=
  match fields with
  | [] => .ok out
  | (name, value) :: rest => do
    let out ← push role path depth value (pushKey name (pushComma i out))
    pushFields role path depth (i + 1) rest out
termination_by structural fields
end

end Value
end DocWire
