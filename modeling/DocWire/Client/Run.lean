import DocWire.Client.Collection
import DocWire.Settings.Basic

/-!
# Runs of a client

A client has usable settings, the transport and log that its operations share, and the sessions and
cursors that were opened, numbered in this order. A run is a list of steps: operations of the
client, and instructions to the transport from outside. Whatever an operation comes to, the run goes
on; at its end the sessions still open are dropped.
-/
set_option autoImplicit false

namespace DocWire

structure Client (σ : Type) where
  settings : Settings
  world : World σ
  sessions : List (Option Session)
  cursors : List DocumentStream

/-- Where a collection operation runs: in a database, by default that of the settings, and perhaps
in a session. -/
structure Place where
  database? : Option String
  session? : Option Nat
deriving DecidableEq, Repr, Inhabited

inductive Operation (α : Type) where
  | insertOne (place : Place) (doc : α)
  | insertMany (place : Place) (docs : List α)
  | findMany (place : Place) (filter? : Option Filter) (projection? : Option Projection)
  | findOne (place : Place) (filter? : Option Filter) (projection? : Option Projection)
  | findByKey (place : Place) (key : Fields)
  | updateMany (place : Place) (filter : Filter) (update : Update)
  | deleteMany (place : Place) (filter : Filter)
  | openCursor (place : Place) (filter? : Option Filter) (projection? : Option Projection)
  | advance (cursor : Nat)
  | drain (cursor : Nat)
  | start (database? : Option String)
  | commit (session : Nat)
  | rollback (session : Nat)
  | drop (session : Nat)

inductive Outcome (α : Type) where
  | done
  | document (doc : α)
  | documents (docs : List α)
  | optional (doc? : Option α)
  | count (n : UInt64)
  | cursor (index : Nat)
  | session (index : Nat) (session : Session)

namespace Client
variable {σ α : Type}

/-- Opens a client over a transport; its settings have to be usable. -/
def open? (settings : Settings) (transport : σ) : Except Failure (Client σ) := do
  settings.validate
  .ok ⟨settings, ⟨transport, [.clientOpened settings.serverUrl settings.database]⟩, [], []⟩

def databaseName (client : Client σ) (database? : Option String) : String :=
  database?.getD client.settings.database

def collection (client : Client σ) (type : DocumentType α) (place : Place) : Collection α :=
  ⟨type, client.databaseName place.database?⟩

def session? (client : Client σ) (index : Nat) : Option Session := (client.sessions[index]?).join

def placeSession? (client : Client σ) (place : Place) : Option Session :=
  place.session?.bind client.session?

def perform {β : Type} (client : Client σ) (action : Action σ β) (outcome : β → Outcome α) :
    Except Failure (Outcome α) × Client σ :=
  let (result, world) := action.perform client.world
  (result.map outcome, { client with world := world })

def openCursor (client : Client σ) (action : Action σ DocumentStream) :
    Except Failure (Outcome α) × Client σ :=
  let (result, world) := action.perform client.world
  let client := { client with world := world }
  match result with
  | .error e => (.error e, client)
  | .ok stream =>
    (.ok (.cursor client.cursors.length), { client with cursors := client.cursors ++ [stream] })

def start (client : Client σ) (t : Transport σ) (database : String) :
    Except Failure (Outcome α) × Client σ :=
  let (result, world) := (Session.start t database).perform client.world
  let client := { client with world := world }
  match result with
  | .error e => (.error e, client)
  | .ok session =>
    (.ok (.session client.sessions.length session),
      { client with sessions := client.sessions ++ [some session] })

/-- Gives a session that is still open to an action; it is not open any more whatever comes of it. -/
def finish (client : Client σ) (index : Nat) (action : Session → Action σ Unit) :
    Except Failure (Outcome α) × Client σ :=
  match client.session? index with
  | none => (.ok .done, client)
  | some session =>
    { client with sessions := client.sessions.set index none }.perform (action session) fun _ => .done

def operate (client : Client σ) (t : Transport σ) (type : DocumentType α) :
    Operation α → Except Failure (Outcome α) × Client σ
  | .insertOne place doc =>
    client.perform ((client.collection type place).insertOne t doc (client.placeSession? place))
      .document
  | .insertMany place docs =>
    client.perform ((client.collection type place).insertMany t docs (client.placeSession? place))
      .documents
  | .findMany place filter? projection? =>
    client.perform (do
      let c := client.collection type place
      let stream ← c.findMany t filter? projection? (client.placeSession? place)
      Action.ofExcept (stream.collect type)) .documents
  | .findOne place filter? projection? =>
    client.perform ((client.collection type place).findOne t filter? projection?
      (client.placeSession? place)) .optional
  | .findByKey place key =>
    client.perform ((client.collection type place).findByKey t key (client.placeSession? place))
      .document
  | .updateMany place filter update =>
    client.perform ((client.collection type place).updateMany t filter update
      (client.placeSession? place)) .count
  | .deleteMany place filter =>
    client.perform ((client.collection type place).deleteMany t filter (client.placeSession? place))
      .count
  | .openCursor place filter? projection? =>
    client.openCursor ((client.collection type place).findMany t filter? projection?
      (client.placeSession? place))
  | .advance cursor =>
    match client.cursors[cursor]? with
    | none => (.ok (.optional none), client)
    | some stream =>
      let (next?, rest) := stream.advance type
      let client := { client with cursors := client.cursors.set cursor rest }
      match next? with
      | none => (.ok (.optional none), client)
      | some result => (result.map fun doc => .optional (some doc), client)
  | .drain cursor =>
    ((((client.cursors[cursor]?).getD []).collect type).map .documents,
      { client with cursors := client.cursors.set cursor [] })
  | .start database? => client.start t (client.databaseName database?)
  | .commit session => client.finish session (Session.commit t)
  | .rollback session => client.finish session (Session.rollback t)
  | .drop session => client.finish session Session.drop

/-- Drops the sessions that are still open, in the order in which they were opened. -/
def close (client : Client σ) : Client σ :=
  { client with
    world := (client.sessions.filterMap id).foldl (fun world s => (s.drop.perform world).2) client.world
    sessions := client.sessions.map fun _ => none }

end Client

/-! ## Runs -/

/-- A step of a run, with instructions of type `κ` to the transport. -/
inductive Step (α κ : Type) where
  | operation (operation : Operation α)
  | control (instruction : κ)

namespace Client
variable {σ α κ : Type}

def step (client : Client σ) (t : Transport σ) (apply : κ → σ → σ) (type : DocumentType α) :
    Step α κ → Except Failure (Outcome α) × Client σ
  | .operation operation => client.operate t type operation
  | .control instruction =>
    (.ok .done,
      { client with
        world := { client.world with transport := apply instruction client.world.transport } })

/-- Takes steps one after another, and returns what each came to. -/
def run (t : Transport σ) (apply : κ → σ → σ) (type : DocumentType α) :
    List (Step α κ) → Client σ → List (Except Failure (Outcome α)) × Client σ
  | [], client => ([], client)
  | step :: rest, client =>
    let (result, client) := client.step t apply type step
    let (results, client) := run t apply type rest client
    (result :: results, client)

end Client
end DocWire
