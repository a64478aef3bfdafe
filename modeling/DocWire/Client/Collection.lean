import DocWire.Client.Cursor
import DocWire.Client.Session
import DocWire.Document.Keys
import DocWire.Filter.Paths
import DocWire.Filter.Wire
import DocWire.Projection.Basic
import DocWire.Update.Wire

/-!
# Collections

The operations on the documents of one collection. Each first encodes what it sends and checks its
paths against the schema, so that nothing is sent of a request that has no wire form.
-/
set_option autoImplicit false

namespace DocWire

/-- The documents of a type in a database. -/
structure Collection (α : Type) where
  type : DocumentType α
  database : String

namespace Collection
variable {σ α : Type}

/-! ## Payloads -/

/-- The payload of a read that names no filter. -/
def everything : ByteArray := "\x7b\x7d".toUTF8

def tokenOf (c : Collection α) (session? : Option Session) : Except Failure (Option SessionToken) :=
  match session? with
  | none => .ok none
  | some s => do .ok (some (← s.tokenFor c.database))

def filterBytes (c : Collection α) (filter : Filter) : Except Failure ByteArray := do
  c.type.checkPaths (← filter.paths)
  .ok (← filter.encode).toUTF8

def optionalFilterBytes (c : Collection α) (filter? : Option Filter) : Except Failure ByteArray :=
  match filter? with
  | none => .ok everything
  | some filter => c.filterBytes filter

def projectionBytes (c : Collection α) (projection? : Option Projection) :
    Except Failure (Option ByteArray) :=
  match projection? with
  | none => .ok none
  | some p => do
    c.type.checkPaths p.included
    c.type.checkPaths p.excluded
    .ok (some (← p.encode).toUTF8)

def updateBytes (c : Collection α) (update : Update) : Except Failure ByteArray := do
  c.type.checkPaths (← update.paths)
  .ok (← update.encode).toUTF8

/-! ## Insertion -/

def mergeAll (type : DocumentType α) : List α → List ByteArray → Except Failure (List α)
  | doc :: docs, payload :: payloads => do
    let merged ← type.merge doc (← generatedKeys payload)
    .ok (merged :: (← mergeAll type docs payloads))
  | _, _ => .ok []

/-- The documents with the keys of an answer, of which there has to be one for each document. -/
def withKeys (type : DocumentType α) (docs : List α) (payloads : List ByteArray) :
    Except Failure (List α) :=
  if payloads.length = docs.length then mergeAll type docs payloads
  else .error (.transport (.keyCount payloads.length docs.length))

/-- Inserts documents, and returns them with their generated keys. -/
def insertMany (c : Collection α) (t : Transport σ) (docs : List α) (session? : Option Session) :
    Action σ (List α) := do
  let documents ← Action.ofExcept (c.type.writeAll docs)
  let token? ← Action.ofExcept (c.tokenOf session?)
  Action.note (.insertSent c.database c.type.collection docs.length)
  let payloads ← Action.call (t.insert ⟨c.database, c.type.collection, documents, token?⟩)
  Action.ofExcept (withKeys c.type docs payloads)

/-- The only document that an insertion returns. -/
def lastInserted (docs : List α) : Except Failure α :=
  match docs.getLast? with
  | some doc => .ok doc
  | none => .error (.transport .noKeys)

/-- Inserts a document, and returns it with its generated keys. -/
def insertOne (c : Collection α) (t : Transport σ) (doc : α) (session? : Option Session) :
    Action σ α := do
  let docs ← c.insertMany t [doc] session?
  Action.ofExcept (lastInserted docs)

/-! ## Reading -/

def read (c : Collection α) (t : Transport σ) (filter? : Option Filter)
    (projection? : Option Projection) (limit? : Option Nat) (session? : Option Session) :
    Action σ DocumentStream := do
  let filter ← Action.ofExcept (c.optionalFilterBytes filter?)
  let fields? ← Action.ofExcept (c.projectionBytes projection?)
  Action.note (.readSent c.database c.type.collection filter.size
    ((fields?.map ByteArray.size).getD 0))
  let token? ← Action.ofExcept (c.tokenOf session?)
  Action.call (t.read ⟨c.database, c.type.collection, filter, fields?, limit?, none, token?⟩)

/-- The documents that match a filter, or all documents. -/
def findMany (c : Collection α) (t : Transport σ) (filter? : Option Filter)
    (projection? : Option Projection) (session? : Option Session) : Action σ DocumentStream :=
  c.read t filter? projection? none session?

def findOne (c : Collection α) (t : Transport σ) (filter? : Option Filter)
    (projection? : Option Projection) (session? : Option Session) : Action σ (Option α) := do
  let stream ← c.read t filter? projection? (some 1) session?
  Action.ofExcept (stream.first c.type)

/-- The paths of a key, which have to be those of the primary key in any order. -/
def keyPaths (c : Collection α) (key : Fields) : Except Failure (List String) := do
  let declared := c.type.primaryKey
  let paths ← key.leafPaths
  if paths.length = declared.length ∧ declared.all paths.contains then .ok paths
  else .error (.filter (.keyMismatch paths declared c.type.collection))

def found (c : Collection α) (paths : List String) (doc? : Option α) : Except Failure α :=
  match doc? with
  | some doc => .ok doc
  | none => .error (.noSuchDocument c.database c.type.collection paths)

def findByKey (c : Collection α) (t : Transport σ) (key : Fields) (session? : Option Session) :
    Action σ α := do
  let paths ← Action.ofExcept (c.keyPaths key)
  let doc? ← c.findOne t (some (.selector (.equals key))) none session?
  Action.ofExcept (c.found paths doc?)

/-! ## Writing -/

/-- Updates the documents that match a filter, and returns how many there were. -/
def updateMany (c : Collection α) (t : Transport σ) (filter : Filter) (update : Update)
    (session? : Option Session) : Action σ UInt64 := do
  let filter ← Action.ofExcept (c.filterBytes filter)
  let fields ← Action.ofExcept (c.updateBytes update)
  Action.note (.updateSent c.database c.type.collection filter.size fields.size)
  let token? ← Action.ofExcept (c.tokenOf session?)
  Action.call (t.update ⟨c.database, c.type.collection, filter, fields, token?⟩)

/-- Deletes the documents that match a filter, and returns how many there were. -/
def deleteMany (c : Collection α) (t : Transport σ) (filter : Filter) (session? : Option Session) :
    Action σ UInt64 := do
  let filter ← Action.ofExcept (c.filterBytes filter)
  Action.note (.deleteSent c.database c.type.collection filter.size)
  let token? ← Action.ofExcept (c.tokenOf session?)
  Action.call (t.delete ⟨c.database, c.type.collection, filter, token?⟩)

end Collection
end DocWire
