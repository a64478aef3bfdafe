import DocWire.Client.Action

/-!
# Sessions

A session is an open transaction of one database. It is finished when it is committed or rolled back,
whatever the transport answers. Every session is dropped in the end, and one that is not finished then
leaves a warning.
-/
set_option autoImplicit false

namespace DocWire

structure Session where
  database : String
  token : SessionToken
  finished : Bool
deriving DecidableEq, Repr

namespace Session
variable {σ : Type}

/-- The token for a request to a database; it has to be the session's own. -/
def tokenFor (s : Session) (database : String) : Except Failure SessionToken :=
  if s.database = database then .ok s.token
  else .error (.foreignSession s.token.txId s.database database)

def start (t : Transport σ) (database : String) : Action σ Session := do
  let token ← Action.call (t.start database)
  Action.note (.began token.txId database)
  return ⟨database, token, false⟩

def drop (s : Session) : Action σ Unit :=
  if s.finished then pure () else Action.note (.abandoned s.token.txId s.database)

/-- Commits the transaction and drops the session, which is finished from the first step on. -/
def commit (t : Transport σ) (s : Session) : Action σ Unit :=
  let s := { s with finished := true }
  Action.andFinally (do
    Action.note (.committing s.token.txId s.database)
    Action.call (t.commit s.database s.token)) s.drop

def rollback (t : Transport σ) (s : Session) : Action σ Unit :=
  let s := { s with finished := true }
  Action.andFinally (do
    Action.note (.rollingBack s.token.txId s.database)
    Action.call (t.rollback s.database s.token)) s.drop

end Session
end DocWire
