import DocWire.Log.Event
import DocWire.Transport.Basic

/-!
# Actions of a client

An action may log and may call the transport, and it ends with a result or an error. What it logged
and what the transport did stay done when it fails.
-/
set_option autoImplicit false

namespace DocWire

/-- What actions change: the state of the transport and the log, oldest event first. -/
structure World (σ : Type) where
  transport : σ
  log : List LogEvent

/-- An action with a result, or an error. -/
abbrev Action (σ α : Type) := ExceptT Failure (StateM (World σ)) α

namespace Action
variable {σ α : Type}

def note (event : LogEvent) : Action σ Unit :=
  modify fun world => { world with log := world.log ++ [event] }

def call (request : σ → Except Failure α × σ) : Action σ α :=
  ExceptT.mk fun world =>
    let (answer, transport) := request world.transport
    (answer, { world with transport := transport })

/-- Takes over the result of a computation that may fail. -/
def ofExcept (result : Except Failure α) : Action σ α := ExceptT.mk (pure result)

def perform (action : Action σ α) (world : World σ) : Except Failure α × World σ :=
  StateT.run (ExceptT.run action) world

/-- Performs an action and then a last one, whatever the first came to, and returns what it came to. -/
def andFinally (action : Action σ α) (last : Action σ Unit) : Action σ α :=
  ExceptT.mk fun world =>
    let (result, world) := action.perform world
    (result, (last.perform world).2)

end Action
end DocWire
