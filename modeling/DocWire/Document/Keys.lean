import DocWire.Document.Basic
import DocWire.Value.Leaves
import DocWire.Value.Plain
import DocWire.Value.Source

/-!
# Generated keys

A server answers an insertion with the keys that it gave to each document, as an object. Merging
writes the leaves of this object into the document's JSON value, each at its path and in order, and
reads the document again.
-/
set_option autoImplicit false

namespace DocWire

def generatedKeys (bytes : ByteArray) : Except Failure Fields := do
  match ← (Json.ofBytes bytes).mapError Failure.json with
  | .object members => Fields.ofJson members
  | _ => .error (.value .keysNotObject)

def placeLeaves : Fields → Entries Json → Except Failure (Entries Json)
  | [], root => .ok root
  | (path, value) :: rest, root => do
    let json ← value.toJson
    placeLeaves rest (← Json.place path json root)

def mergeKeys (keys : Fields) (root : Entries Json) : Except Failure (Entries Json) := do
  placeLeaves (← keys.leaves) root

/-- A document with keys written into it. -/
def DocumentType.merge {α : Type} (type : DocumentType α) (doc : α) (keys : Fields) :
    Except Failure α := do
  match ← type.value doc with
  | .object root =>
    match type.ofJson? (.object (← mergeKeys keys root)) with
    | some merged => .ok merged
    | none => .error (.json .malformed)
  | _ => .error (.value .documentNotObject)

end DocWire
