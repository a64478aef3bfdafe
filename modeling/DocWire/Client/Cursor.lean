import DocWire.Document.Basic
import DocWire.Transport.Basic

/-!
# Cursors

A cursor goes through a stream of documents once and forwards, and reads each document when it gets
there.
-/
set_option autoImplicit false

namespace DocWire.DocumentStream
variable {α : Type}

def readItem (type : DocumentType α) (item : Except Failure ByteArray) : Except Failure α := do
  type.read (← item)

/-- The next document, if there is one, and what is left of the stream. -/
def advance (type : DocumentType α) :
    DocumentStream → Option (Except Failure α) × DocumentStream
  | [] => (none, [])
  | item :: rest => (some (readItem type item), rest)

/-- All documents that are left, or the first error. -/
def collect (type : DocumentType α) : DocumentStream → Except Failure (List α)
  | [] => .ok []
  | item :: rest => do
    let doc ← readItem type item
    .ok (doc :: (← collect type rest))

/-- The next document, if there is one, or its error. -/
def first (type : DocumentType α) (stream : DocumentStream) : Except Failure (Option α) :=
  match (advance type stream).1 with
  | none => .ok none
  | some result => result.map some

end DocWire.DocumentStream
