import DocWire.Json.Canonical
import DocWire.Json.Writer

/-!
# Shapes of typed documents

A shape says which JSON values are documents of a type, and each such document has one canonical
JSON value: a record has its declared members in order, with defaults filled in, and a double is
written in its shortest form. `fit?` takes a JSON value to its canonical value. In place of an object
a record may be an array of its fields, in order, where fields with a default may be missing from
the end.
-/
set_option autoImplicit false

namespace DocWire

/-- What a document, or a part of one, may be. The fields of a record have a name, a shape and
perhaps a default. -/
inductive Shape where
  | any
  | string
  | optionalString
  | unsigned (limit : Nat)
  | double
  | record (fields : List (String × Shape × Option Json))
deriving Inhabited

namespace Shape

/-- The value of a double; JSON has no form for an infinite one. -/
def doubleValue (x : Binary64) : Json := if x.isFinite then .number x.text else .null

/-! ## JSON values -/

def fitUnsigned? (limit : Nat) : Json → Option Json
  | .number digits => do
    let n ← natural? digits.toList
    if n ≤ limit then some (.ofInt n) else none
  | _ => none

/-- A double from any number, the nearest one. -/
def fitDouble? : Json → Option Json
  | .number digits => (Binary64.ofText? digits).map doubleValue
  | _ => none

mutual
def fit? (shape : Shape) (json : Json) : Option Json :=
  match shape with
  | any => json.canonical?
  | string =>
    match json with
    | .string s => some (.string s)
    | _ => none
  | optionalString =>
    match json with
    | .string s => some (.string s)
    | .null => some .null
    | _ => none
  | unsigned limit => fitUnsigned? limit json
  | double => fitDouble? json
  | record fields =>
    match json with
    | .object members => (fitMembers? fields members).map .object
    | .array items => (fitItems? fields items).map .object
    | _ => none
termination_by structural shape

def fitMembers? (fields : List (String × Shape × Option Json)) (members : Entries Json) :
    Option (Entries Json) :=
  match fields with
  | [] => some []
  | (name, shape, fallback?) :: rest => do
    let value ← match Entries.get? name members with
      | some json => fit? shape json
      | none => fallback?
    some ((name, value) :: (← fitMembers? rest members))
termination_by structural fields

def fitItems? (fields : List (String × Shape × Option Json)) (items : List Json) :
    Option (Entries Json) :=
  match fields with
  | [] => if items.isEmpty then some [] else none
  | (name, shape, fallback?) :: rest => do
    let value ← match items with
      | json :: _ => fit? shape json
      | [] => fallback?
    some ((name, value) :: (← fitItems? rest (items.drop 1)))
termination_by structural fields
end

end Shape
end DocWire
