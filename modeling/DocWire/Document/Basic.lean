import DocWire.Json.Canonical
import DocWire.Json.Reader
import DocWire.Json.Writer
import DocWire.Path

/-!
# Document types

A document type names its collection, the field paths of its schema and of its primary key, and says
how a document is read and written. A type without schema fields knows every path; otherwise a path
is known when it is a declared path, lies under one, or has one under it.
-/
set_option autoImplicit false

namespace DocWire

structure DocumentType (α : Type) where
  collection : String
  schemaFields : List String
  primaryKey : List String
  toJson : α → Json
  /-- The document that a JSON value stands for. -/
  ofJson? : Json → Option α
  decode : ByteArray → Except Json.Fault α
  /-- Whether a document has a JSON value; a type may hold documents that have none. -/
  serializes : α → Bool := fun _ => true

namespace DocumentType
variable {α : Type}

def encode (type : DocumentType α) (doc : α) : ByteArray := (type.toJson doc).bytes

/-- The JSON value of a document, for a caller that handles all kinds of errors. -/
def value (type : DocumentType α) (doc : α) : Except Failure Json :=
  if type.serializes doc then .ok (type.toJson doc) else .error (.json .malformed)

def writeAll (type : DocumentType α) : List α → Except Failure (List ByteArray)
  | [] => .ok []
  | doc :: docs => do
    let json ← type.value doc
    .ok (json.bytes :: (← writeAll type docs))

/-- Reads a document, for a caller that handles all kinds of errors. -/
def read (type : DocumentType α) (bytes : ByteArray) : Except Failure α :=
  (type.decode bytes).mapError Failure.json

def knows (type : DocumentType α) (path : String) : Bool :=
  type.schemaFields.any fun declared => isWithin declared path || isWithin path declared

def checkPaths (type : DocumentType α) (paths : List String) : Except Failure Unit :=
  if type.schemaFields.isEmpty then .ok ()
  else
    match paths.find? fun path => !type.knows path with
    | some path => .error (.filter (.unknownField path type.collection))
    | none => .ok ()

end DocumentType

def DocumentType.anyJson (collection : String) (schemaFields primaryKey : List String) :
    DocumentType Json where
  collection := collection
  schemaFields := schemaFields
  primaryKey := primaryKey
  toJson := id
  ofJson? := Json.canonical?
  decode := Json.ofBytes

end DocWire
