import DocWire.Transport.Recording

/-!
# The scripted transport

A recording transport whose answers to insertions and reads can be replaced: after the recording
transport has answered, a queued answer takes the place of its own.
-/
set_option autoImplicit false

namespace DocWire

/-- The state of a scripted transport. -/
structure Scripted where
  recording : Recording
  keys : List (List ByteArray)
  streams : List DocumentStream

namespace Scripted

def initial (keyField : String) : Scripted := ⟨.counting keyField, [], []⟩

def pass {α : Type} (call : Recording → Except Failure α × Recording) (s : Scripted) :
    Except Failure α × Scripted :=
  let (answer, recording) := call s.recording
  (answer, { s with recording := recording })

def insert (request : InsertRequest) (s : Scripted) : Except Failure (List ByteArray) × Scripted :=
  match s.pass (Recording.transport.insert request), s.keys with
  | (.ok _, s), keys :: rest => (.ok keys, { s with keys := rest })
  | answer, _ => answer

/-- Answers a read. -/
def read (request : ReadRequest) (s : Scripted) : Except Failure DocumentStream × Scripted :=
  match s.pass (Recording.transport.read request), s.streams with
  | (.ok _, s), stream :: rest => (.ok stream, { s with streams := rest })
  | answer, _ => answer

def transport : Transport Scripted where
  insert := insert
  read := read
  update request s := s.pass (Recording.transport.update request)
  delete request s := s.pass (Recording.transport.delete request)
  start database s := s.pass (Recording.transport.start database)
  commit database token s := s.pass (Recording.transport.commit database token)
  rollback database token s := s.pass (Recording.transport.rollback database token)

/-- What a scripted transport can be told. -/
inductive Control where
  | recording (control : Recording.Control)
  | queueKeys (keys : List ByteArray)
  | queueStream (stream : DocumentStream)

def Control.apply : Control → Scripted → Scripted
  | recording control, s => { s with recording := control.apply s.recording }
  | queueKeys keys, s => { s with keys := s.keys ++ [keys] }
  | queueStream stream, s => { s with streams := s.streams ++ [stream] }

end Scripted
end DocWire
