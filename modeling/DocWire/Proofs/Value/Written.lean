import DocWire.Proofs.Json.Push
import DocWire.Value.Wire

/-!
# The tree of a written value

The text of a value is that of a JSON tree, `Value.wireAt`, and where the value cannot be written there
is no tree, for the same reason. Main statement: `adds_push`.
-/
set_option autoImplicit false

namespace DocWire.Value

mutual
/-- The wire form of a value that stands `depth` steps below the value of the field. -/
def wireAt (role : WireRole) (path : String) (depth : Nat) (value : Value) :
    Except Failure Json :=
  if pathDepthLimit < depth then .error (.filter (.valueTooDeep path))
  else
    match value with
    | null => .ok .null
    | bool b => .ok (.bool b)
    | int n => .ok (.ofInt n.toInt)
    | uint n => .ok (.ofInt n.toNat)
    | wide n => .ok (.number n.text)
    | float x =>
      if x.isFinite then .ok (.number x.text) else .error (.value (.fieldNotFinite path x))
    | string s => .ok (.string s)
    | instant t => .ok (.string t.text)
    | uuid u => .ok (.string u.text)
    | array items =>
      match role with
      | .selector => .error (.value (.arrayInSelector path))
      | .update => do .ok (.array (← wireItems role path (depth + 1) items))
    | object fields => do .ok (.object (← wireFields role path (depth + 1) fields))
termination_by structural value

def wireItems (role : WireRole) (path : String) (depth : Nat) (items : List Value) :
    Except Failure (List Json) :=
  match items with
  | [] => .ok []
  | item :: rest => do
    let json ← wireAt role path depth item
    .ok (json :: (← wireItems role path depth rest))
termination_by structural items

def wireFields (role : WireRole) (path : String) (depth : Nat)
    (fields : List (String × Value)) : Except Failure (List (String × Json)) :=
  match fields with
  | [] => .ok []
  | (name, value) :: rest => do
    let json ← wireAt role path depth value
    .ok ((name, json) :: (← wireFields role path depth rest))
termination_by structural fields
end

def wire (role : WireRole) (path : String) (value : Value) : Except Failure Json :=
  wireAt role path 0 value

/-! ## Writing -/

theorem text_ofInt (n : Int) : (Json.ofInt n).text = toString n := String.ofList_toList

theorem text_number (text : String) : (Json.number text).text = text := String.ofList_toList

theorem text_bool (b : Bool) : (Json.bool b).text = if b then "true" else "false" := by
  cases b <;> rfl

theorem pushString_eq (s out : String) : pushString s out = out ++ (Json.string s).text := rfl

/-- A member is written as its name and its value. -/
theorem adds_member {name : String} {step : String → Except Failure String}
    {result : Except Failure Json} (h : Adds step result Json.text) :
    Adds (fun out => step (pushKey name out)) (result >>= fun json => .ok (name, json))
      Json.memberText := by
  intro out
  change step (pushKey name out) = _
  rw [h (pushKey name out)]
  cases result with
  | error e => rfl
  | ok json => exact congrArg Except.ok (Json.pushKey_append_text name out json)

mutual
/-- A value is written as the text of its wire form. -/
theorem adds_push (role : WireRole) (path : String) (depth : Nat) (value : Value) :
    Adds (push role path depth value) (wireAt role path depth value) Json.text := by
  intro out
  unfold push wireAt
  by_cases hl : pathDepthLimit < depth
  · rw [if_pos hl, if_pos hl]
    rfl
  · rw [if_neg hl, if_neg hl]
    match value with
    | .null | .string _ | .instant _ | .uuid _ => rfl
    | .bool b => exact congrArg (fun text => Except.ok (out ++ text)) (text_bool b).symm
    | .int n => exact congrArg (fun text => Except.ok (out ++ text)) (text_ofInt n.toInt).symm
    | .uint n => exact congrArg (fun text => Except.ok (out ++ text)) (text_ofInt n.toNat).symm
    | .wide n => exact congrArg (fun text => Except.ok (out ++ text)) (text_number _).symm
    | .float x =>
      by_cases hf : x.isFinite = true
      · simp only [hf, if_true, bind_ok, text_number]
      · simp only [hf]
        rfl
    | .array items =>
      cases role with
      | selector => rfl
      | update =>
        have hi := adds_pushItems .update path (depth + 1) 0 items (out.push '[')
        simp only [hi]
        cases wireItems .update path (depth + 1) items with
        | error e => rfl
        | ok list => exact congrArg Except.ok (Json.text_array list out)
    | .object fields =>
      have hf := adds_pushFields role path (depth + 1) 0 fields (out.push '{')
      simp only [hf]
      cases wireFields role path (depth + 1) fields with
      | error e => rfl
      | ok members => exact congrArg Except.ok (Json.text_object members out)
termination_by structural value

theorem adds_pushItems (role : WireRole) (path : String) (depth i : Nat) (items : List Value) :
    Adds (pushItems role path depth i items) (wireItems role path depth items)
      fun list => joined i (list.map Json.text) := by
  match items with
  | [] =>
    intro out
    exact congrArg Except.ok String.append_empty.symm
  | item :: rest =>
    exact adds_cons (adds_push role path depth item) (adds_pushItems role path depth (i + 1) rest)
termination_by structural items

theorem adds_pushFields (role : WireRole) (path : String) (depth i : Nat)
    (fields : List (String × Value)) :
    Adds (pushFields role path depth i fields) (wireFields role path depth fields)
      fun members => joined i (members.map Json.memberText) := by
  match fields with
  | [] =>
    intro out
    exact congrArg Except.ok String.append_empty.symm
  | (name, value) :: rest =>
    have hw : wireFields role path depth ((name, value) :: rest) =
        ((wireAt role path depth value >>= fun json => .ok (name, json)) >>= fun member =>
          wireFields role path depth rest >>= fun others => .ok (member :: others)) := by
      rw [wireFields]
      cases wireAt role path depth value <;> rfl
    rw [hw]
    exact adds_cons (adds_member (adds_push role path depth value))
      (adds_pushFields role path depth (i + 1) rest)
termination_by structural fields
end

end DocWire.Value
