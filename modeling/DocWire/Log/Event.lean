import DocWire.Log.Record

/-!
# What the client logs

Every occasion on which a record is written, with its level, its target and its wording.
-/
set_option autoImplicit false

namespace DocWire

/-- An occasion for a log record. -/
inductive LogEvent where
  | clientOpened (server database : String)
  | insertSent (database collection : String) (documents : Nat)
  | readSent (database collection : String) (filterSize fieldsSize : Nat)
  | updateSent (database collection : String) (filterSize fieldsSize : Nat)
  | deleteSent (database collection : String) (filterSize : Nat)
  | began (txId database : String)
  | committing (txId database : String)
  | rollingBack (txId database : String)
  | abandoned (txId database : String)
  | settingsRead (path : String)
deriving DecidableEq, Repr

namespace LogEvent

def level : LogEvent → LogLevel
  | clientOpened _ _ => .info
  | abandoned _ _ => .warn
  | _ => .debug

def target : LogEvent → String
  | clientOpened _ _ => "nexusrpc"
  | insertSent _ _ _ => LogRecord.wireTarget
  | readSent _ _ _ _ => LogRecord.wireTarget
  | updateSent _ _ _ _ => LogRecord.wireTarget
  | deleteSent _ _ _ => LogRecord.wireTarget
  | began _ _ => "nexusrpc::database"
  | committing _ _ => "nexusrpc::session"
  | rollingBack _ _ => "nexusrpc::session"
  | abandoned _ _ => "nexusrpc::session"
  | settingsRead _ => "nexusrpc::config"

def message : LogEvent → String
  | clientOpened server database => s!"client: server={server} database={database}"
  | insertSent database collection documents => s!"insert {database}.{collection} docs={documents}"
  | readSent database collection filterSize fieldsSize =>
    s!"read {database}.{collection} filter={filterSize}B fields={fieldsSize}B"
  | updateSent database collection filterSize fieldsSize =>
    s!"update {database}.{collection} filter={filterSize}B fields={fieldsSize}B"
  | deleteSent database collection filterSize =>
    s!"delete {database}.{collection} filter={filterSize}B"
  | began txId database => s!"begin tx={txId} db={database}"
  | committing txId database => s!"commit tx={txId} db={database}"
  | rollingBack txId database => s!"rollback tx={txId} db={database}"
  | abandoned txId database =>
    s!"transaction {txId} on `{database}` dropped without commit or rollback"
  | settingsRead path => s!"config: loaded {path}"

def record (event : LogEvent) : LogRecord := ⟨event.level, event.target, event.message⟩

end LogEvent
end DocWire
