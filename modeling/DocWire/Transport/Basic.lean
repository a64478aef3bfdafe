import DocWire.Failure

/-!
# Transports

A transport carries requests to the database and brings answers back. Payloads are bytes that it
never looks into. Here a transport is seven functions on a state of its own; what a call did to the
state comes with its answer, also when it failed.
-/
set_option autoImplicit false

namespace DocWire

/-- The token of an open transaction. -/
structure SessionToken where
  txId : String
  origin : String
deriving DecidableEq, Repr, Inhabited

structure InsertRequest where
  database : String
  collection : String
  documents : List ByteArray
  session? : Option SessionToken

structure ReadRequest where
  database : String
  collection : String
  filter : ByteArray
  fields? : Option ByteArray
  limit? : Option Nat
  skip? : Option Nat
  session? : Option SessionToken

structure UpdateRequest where
  database : String
  collection : String
  filter : ByteArray
  fields : ByteArray
  session? : Option SessionToken

structure DeleteRequest where
  database : String
  collection : String
  filter : ByteArray
  session? : Option SessionToken

/-- A request of any kind. -/
inductive Call where
  | insert (request : InsertRequest)
  | read (request : ReadRequest)
  | update (request : UpdateRequest)
  | delete (request : DeleteRequest)
  | start (database : String)
  | commit (database : String) (token : SessionToken)
  | rollback (database : String) (token : SessionToken)

namespace Call

def database : Call → String
  | insert request => request.database
  | read request => request.database
  | update request => request.database
  | delete request => request.database
  | start database => database
  | commit database _ => database
  | rollback database _ => database

def token? : Call → Option SessionToken
  | insert request => request.session?
  | read request => request.session?
  | update request => request.session?
  | delete request => request.session?
  | start _ => none
  | commit _ token => some token
  | rollback _ token => some token

end Call

/-- The documents of a read, one after another; a failure takes the place of a document. -/
abbrev DocumentStream := List (Except Failure ByteArray)

/-- A way to the database, over a state. -/
structure Transport (σ : Type) where
  /-- The generated keys of each document. -/
  insert : InsertRequest → σ → Except Failure (List ByteArray) × σ
  read : ReadRequest → σ → Except Failure DocumentStream × σ
  /-- The number of documents that were changed. -/
  update : UpdateRequest → σ → Except Failure UInt64 × σ
  /-- The number of documents that were deleted. -/
  delete : DeleteRequest → σ → Except Failure UInt64 × σ
  start : String → σ → Except Failure SessionToken × σ
  commit : String → SessionToken → σ → Except Failure Unit × σ
  rollback : String → SessionToken → σ → Except Failure Unit × σ

end DocWire
