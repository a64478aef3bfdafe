import DocWire.Json.Writer
import DocWire.Transport.Basic

/-!
# The recording transport

A transport that records every call and answers from what it was told before: documents get
consecutive keys, a read takes the oldest batch of documents that was queued and sends it into a channel
of its own, and a failure can be armed for the next call. The channels and the identifiers of
transactions come from outside.
-/
set_option autoImplicit false

namespace DocWire

/-- Channels whose other end is open. A channel takes what is sent as long as it has room. -/
structure Channels where
  /-- What a channel of some capacity holds after one more item is sent into it, or why it takes no
  more. -/
  trySend : Nat → DocumentStream → Except Failure ByteArray → Except String DocumentStream
  trySend_of_room (capacity : Nat) (held : DocumentStream) (item : Except Failure ByteArray) :
    held.length < capacity → trySend capacity held item = .ok (held ++ [item])

/-- Channels that take what they have room for and no more. -/
def Channels.bounded : Channels where
  trySend capacity held item :=
    if held.length < capacity then .ok (held ++ [item]) else .error "no available capacity"
  trySend_of_room _ _ _ h := if_pos h

structure Recording where
  calls : List Call
  reads : List (List ByteArray)
  keyField : String
  nextKey : UInt64
  modified : UInt64
  deleted : UInt64
  failure? : Option String
  started : Nat
  /-- The identifiers of transactions, in the order in which they are given out. -/
  ids : Nat → String
  channels : Channels

namespace Recording

def initial (keyField : String) (ids : Nat → String) (channels : Channels) : Recording :=
  ⟨[], [], keyField, 1, 0, 0, none, 0, ids, channels⟩

/-- Nothing recorded and nothing queued, transactions that are counted and channels that are bounded. -/
def counting (keyField : String) : Recording :=
  initial keyField (fun n => "tx-" ++ toString (n + 1)) .bounded

def defaultKeyField : String := "id"

def record (call : Call) (r : Recording) : Except Failure Unit × Recording :=
  let r := { r with calls := r.calls ++ [call] }
  match r.failure? with
  | some message => (.error (.transport (.failed message)), { r with failure? := none })
  | none => (.ok (), r)

/-- Records a call and answers it, unless it fails. -/
def respond {α : Type} (call : Call) (answer : Recording → Except Failure α × Recording)
    (r : Recording) : Except Failure α × Recording :=
  match r.record call with
  | (.error e, r) => (.error e, r)
  | (.ok (), r) => answer r

def keyPayload (field : String) (n : UInt64) : ByteArray :=
  (Json.object [(field, .ofInt n.toNat)]).bytes

def takeKeys : Nat → Recording → List ByteArray × Recording
  | 0, r => ([], r)
  | count + 1, r =>
    let (rest, r') := takeKeys count { r with nextKey := r.nextKey + 1 }
    (keyPayload r.keyField r.nextKey :: rest, r')

def sendAll (channels : Channels) (capacity : Nat) :
    List ByteArray → DocumentStream → Except Failure DocumentStream
  | [], held => .ok held
  | doc :: rest, held => do
    let held ← (channels.trySend capacity held (.ok doc)).mapError fun reason =>
      .transport (.failed reason)
    sendAll channels capacity rest held

/-- Takes the oldest batch of documents, cut to the limit, and sends it into a channel. -/
def takeBatch (limit? : Option Nat) (r : Recording) : Except Failure DocumentStream × Recording :=
  let batch := r.reads.headD []
  let batch := match limit? with
    | some limit => batch.take limit
    | none => batch
  (sendAll r.channels (max batch.length 1) batch [], { r with reads := r.reads.tail })

def takeToken (r : Recording) : SessionToken × Recording :=
  (⟨r.ids r.started, "recording"⟩, { r with started := r.started + 1 })

def transport : Transport Recording where
  insert request := respond (.insert request) fun r =>
    let (keys, r) := takeKeys request.documents.length r
    (.ok keys, r)
  read request := respond (.read request) (takeBatch request.limit?)
  update request := respond (.update request) fun r => (.ok r.modified, r)
  delete request := respond (.delete request) fun r => (.ok r.deleted, r)
  start database := respond (.start database) fun r =>
    let (token, r) := takeToken r
    (.ok token, r)
  commit database token := record (.commit database token)
  rollback database token := record (.rollback database token)

inductive Control where
  | queueRead (documents : List ByteArray)
  | setModified (count : UInt64)
  | setDeleted (count : UInt64)
  | armFailure (message : String)

def Control.apply : Control → Recording → Recording
  | queueRead documents, r => { r with reads := r.reads ++ [documents] }
  | setModified count, r => { r with modified := count }
  | setDeleted count, r => { r with deleted := count }
  | armFailure message, r => { r with failure? := some message }

end Recording
end DocWire
