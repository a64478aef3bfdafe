import DocWire.Proofs.Client.Sessions

/-!
# The log of a client

Every operation adds what it has to report to the log, and takes nothing back when it fails. Main
statements: one lemma for each operation of a collection, which says of which request it is the record;
and `log_operate`, the records that an operation adds.
-/
set_option autoImplicit false

namespace DocWire

/-! ## Records of requests -/

def InsertRequest.event (request : InsertRequest) : LogEvent :=
  .insertSent request.database request.collection request.documents.length

def ReadRequest.event (request : ReadRequest) : LogEvent :=
  .readSent request.database request.collection request.filter.size
    ((request.fields?.map ByteArray.size).getD 0)

def UpdateRequest.event (request : UpdateRequest) : LogEvent :=
  .updateSent request.database request.collection request.filter.size request.fields.size

def DeleteRequest.event (request : DeleteRequest) : LogEvent :=
  .deleteSent request.database request.collection request.filter.size

/-- The record that a call should have in the log of requests: its kind, its database and collection,
and the sizes of its payloads. Beginnings and ends of transactions have none. -/
def Call.event? : Call → Option LogEvent
  | .insert request => some request.event
  | .read request => some request.event
  | .update request => some request.event
  | .delete request => some request.event
  | _ => none

/-! ## What actions log -/

namespace Action
variable {σ α β : Type}

/-- The log after an action. -/
def logAfter (action : Action σ α) (w : World σ) : List LogEvent := (action.perform w).2.log

theorem logAfter_call (request : σ → Except Failure α × σ) (w : World σ) :
    (call request).logAfter w = w.log := rfl

theorem logAfter_note_bind (event : LogEvent) (f : Unit → Action σ β) (w : World σ) :
    (note event >>= f).logAfter w = (f ()).logAfter ⟨w.transport, w.log ++ [event]⟩ := rfl

theorem logAfter_ofExcept_bind (result : Except Failure α) (f : α → Action σ β) (w : World σ) :
    (ofExcept result >>= f).logAfter w =
      match result with
      | .ok a => (f a).logAfter w
      | .error _ => w.log := by
  cases result <;> rfl

theorem logAfter_bind_ofExcept (action : Action σ α) (finish : α → Except Failure β) (w : World σ) :
    (action >>= fun a => ofExcept (finish a)).logAfter w = action.logAfter w := by
  unfold logAfter
  rw [perform_bind]
  obtain ⟨result, w'⟩ := action.perform w
  cases result <;> rfl

end Action

namespace Collection
variable {σ α : Type} (c : Collection α) (t : Transport σ) (w : World σ)

/-- An insertion is logged when its request is complete. -/
theorem logAfter_insertMany (docs : List α) (session? : Option Session) :
    (c.insertMany t docs session?).logAfter w =
      w.log ++ ((c.insertRequest docs session?).toOption.map InsertRequest.event).toList := by
  unfold insertMany insertRequest
  rw [Action.logAfter_ofExcept_bind]
  cases hd : c.type.writeAll docs with
  | error e => exact (List.append_nil _).symm
  | ok documents =>
    simp only
    rw [Action.logAfter_ofExcept_bind]
    cases c.tokenOf session? with
    | error e => exact (List.append_nil _).symm
    | ok token? =>
      simp only
      rw [Action.logAfter_note_bind, Action.logAfter_bind_ofExcept, Action.logAfter_call,
        ← DocumentType.length_of_writeAll hd]
      rfl

theorem logAfter_insertOne (doc : α) (session? : Option Session) :
    (c.insertOne t doc session?).logAfter w =
      w.log ++ ((c.insertRequest [doc] session?).toOption.map InsertRequest.event).toList := by
  unfold insertOne
  rw [Action.logAfter_bind_ofExcept, logAfter_insertMany]

/-- What is left after a record is written cannot take it back. -/
theorem logAfter_send {β : Type} (session? : Option Session)
    (request : Option SessionToken → σ → Except Failure β × σ) :
    (do
      let token? ← Action.ofExcept (c.tokenOf session?)
      Action.call (request token?) : Action σ β).logAfter w = w.log := by
  rw [Action.logAfter_ofExcept_bind]
  cases c.tokenOf session? <;> rfl

/-- A read is logged when its payloads are there, whatever becomes of the session. -/
theorem logAfter_read (filter? : Option Filter) (projection? : Option Projection)
    (limit? : Option Nat) (session? : Option Session) :
    (c.read t filter? projection? limit? session?).logAfter w =
      w.log ++ ((c.readRequest filter? projection? limit? none).toOption.map
        ReadRequest.event).toList := by
  unfold read readRequest
  rw [Action.logAfter_ofExcept_bind]
  cases c.optionalFilterBytes filter? with
  | error e => exact (List.append_nil _).symm
  | ok filter =>
    simp only
    rw [Action.logAfter_ofExcept_bind]
    cases c.projectionBytes projection? with
    | error e => exact (List.append_nil _).symm
    | ok fields? =>
      simp only
      rw [Action.logAfter_note_bind, logAfter_send]
      rfl

theorem logAfter_findOne (filter? : Option Filter) (projection? : Option Projection)
    (session? : Option Session) :
    (c.findOne t filter? projection? session?).logAfter w =
      w.log ++ ((c.readRequest filter? projection? (some 1) none).toOption.map
        ReadRequest.event).toList := by
  unfold findOne
  rw [Action.logAfter_bind_ofExcept, logAfter_read]

theorem logAfter_findByKey (key : Fields) (session? : Option Session) :
    (c.findByKey t key session?).logAfter w =
      w.log ++ ((c.lookupRequest key none).toOption.map ReadRequest.event).toList := by
  unfold findByKey lookupRequest
  rw [Action.logAfter_ofExcept_bind]
  cases c.keyPaths key with
  | error e => exact (List.append_nil _).symm
  | ok paths =>
    simp only
    rw [Action.logAfter_bind_ofExcept, logAfter_findOne]
    rfl

theorem logAfter_updateMany (filter : Filter) (update : Update) (session? : Option Session) :
    (c.updateMany t filter update session?).logAfter w =
      w.log ++ ((c.updateRequest filter update none).toOption.map UpdateRequest.event).toList := by
  unfold updateMany updateRequest
  rw [Action.logAfter_ofExcept_bind]
  cases c.filterBytes filter with
  | error e => exact (List.append_nil _).symm
  | ok filter =>
    simp only
    rw [Action.logAfter_ofExcept_bind]
    cases c.updateBytes update with
    | error e => exact (List.append_nil _).symm
    | ok fields =>
      simp only
      rw [Action.logAfter_note_bind, logAfter_send]
      rfl

theorem logAfter_deleteMany (filter : Filter) (session? : Option Session) :
    (c.deleteMany t filter session?).logAfter w =
      w.log ++ ((c.deleteRequest filter none).toOption.map DeleteRequest.event).toList := by
  unfold deleteMany deleteRequest
  rw [Action.logAfter_ofExcept_bind]
  cases c.filterBytes filter with
  | error e => exact (List.append_nil _).symm
  | ok filter =>
    simp only
    rw [Action.logAfter_note_bind, logAfter_send]
    rfl

end Collection

/-! ## What operations log -/

def Operation.inserts {α : Type} : Operation α → Bool
  | .insertOne _ _ => true
  | .insertMany _ _ => true
  | _ => false

namespace Client
variable {σ α : Type}

/-- The call that an operation announces in the log: an insertion the call that it makes, any other
operation the call that it would make without a session. -/
def announced? (client : Client σ) (type : DocumentType α) (operation : Operation α) : Option Call :=
  if operation.inserts then client.call? type operation else client.call? type operation.alone

/-- The records that an operation adds to the log. -/
def noted (client : Client σ) (t : Transport σ) (type : DocumentType α) : Operation α → List LogEvent
  | .start database? =>
    let database := client.databaseName database?
    ((t.start database client.world.transport).1.toOption.map fun token =>
      .began token.txId database).toList
  | .commit index =>
    (client.session? index).toList.flatMap fun s => [.committing s.token.txId s.database]
  | .rollback index =>
    (client.session? index).toList.flatMap fun s => [.rollingBack s.token.txId s.database]
  | .drop index => (client.session? index).toList.flatMap Session.partingEvents
  | operation => ((client.announced? type operation).bind Call.event?).toList

theorem log_perform {β : Type} (client : Client σ) (action : Action σ β) (outcome : β → Outcome α) :
    (client.perform action outcome).2.world.log = action.logAfter client.world := rfl

theorem log_openCursor (client : Client σ) (action : Action σ DocumentStream) :
    (client.openCursor action : Except Failure (Outcome α) × Client σ).2.world.log =
      action.logAfter client.world := by
  unfold openCursor Action.logAfter
  obtain ⟨result, w⟩ := action.perform client.world
  cases result <;> rfl

theorem log_start (client : Client σ) (t : Transport σ) (database : String) :
    (client.start t database : Except Failure (Outcome α) × Client σ).2.world.log =
      client.world.log ++ ((t.start database client.world.transport).1.toOption.map fun token =>
        .began token.txId database).toList := by
  unfold start
  rw [Session.perform_start]
  obtain ⟨result, s⟩ := t.start database client.world.transport
  cases result with
  | error e => exact (List.append_nil _).symm
  | ok token => rfl

theorem log_finish (client : Client σ) (index : Nat) {action : Session → Action σ Unit}
    {events : Session → List LogEvent} (h : ∀ s w, (action s).logAfter w = w.log ++ events s) :
    (client.finish index action : Except Failure (Outcome α) × Client σ).2.world.log =
      client.world.log ++ (client.session? index).toList.flatMap events := by
  unfold finish
  cases client.session? index with
  | none => exact (List.append_nil _).symm
  | some s =>
    rw [Option.toList_some, List.flatMap_singleton]
    exact h s client.world

/-- A client that is closed drops the sessions that are open, one after another. -/
theorem world_close (client : Client σ) :
    client.close.world = ⟨client.world.transport,
      client.world.log ++ (client.sessions.filterMap id).flatMap Session.partingEvents⟩ := by
  have hfold : ∀ (sessions : List Session) (w : World σ),
      sessions.foldl (fun world s => (s.drop.perform world).2) w =
        ⟨w.transport, w.log ++ sessions.flatMap Session.partingEvents⟩ := by
    intro sessions
    induction sessions with
    | nil =>
      intro w
      rw [List.foldl_nil, List.flatMap_nil, List.append_nil]
    | cons s rest ih =>
      intro w
      rw [List.foldl_cons, Session.perform_drop, ih, List.flatMap_cons, List.append_assoc]
  exact hfold _ client.world

theorem transport_close (client : Client σ) : client.close.world.transport = client.world.transport := by
  rw [world_close]

theorem event?_of_request {ρ : Type} (request? : Except Failure ρ) {sent : ρ → Call}
    {event : ρ → LogEvent} (he : ∀ request, (sent request).event? = some (event request)) :
    (request?.toOption.map event).toList =
      ((request?.toOption.map sent).bind Call.event?).toList := by
  cases request? with
  | error e => rfl
  | ok request => simp [Except.toOption, he]

/-- The log after an operation, whatever the operation comes to. -/
theorem log_operate (t : Transport σ) (client : Client σ) (type : DocumentType α)
    (operation : Operation α) :
    (client.operate t type operation).2.world.log =
      client.world.log ++ client.noted t type operation := by
  cases operation with
  | insertOne place doc =>
    rw [operate, log_perform, Collection.logAfter_insertOne]
    exact congrArg _ (event?_of_request _ fun _ => rfl)
  | insertMany place docs =>
    rw [operate, log_perform, Collection.logAfter_insertMany]
    exact congrArg _ (event?_of_request _ fun _ => rfl)
  | findMany place filter? projection? =>
    rw [operate, log_perform, Action.logAfter_bind_ofExcept, Collection.findMany,
      Collection.logAfter_read]
    exact congrArg _ (event?_of_request _ fun _ => rfl)
  | findOne place filter? projection? =>
    rw [operate, log_perform, Collection.logAfter_findOne]
    exact congrArg _ (event?_of_request _ fun _ => rfl)
  | findByKey place key =>
    rw [operate, log_perform, Collection.logAfter_findByKey]
    exact congrArg _ (event?_of_request _ fun _ => rfl)
  | updateMany place filter update =>
    rw [operate, log_perform, Collection.logAfter_updateMany]
    exact congrArg _ (event?_of_request _ fun _ => rfl)
  | deleteMany place filter =>
    rw [operate, log_perform, Collection.logAfter_deleteMany]
    exact congrArg _ (event?_of_request _ fun _ => rfl)
  | openCursor place filter? projection? =>
    rw [operate, log_openCursor, Collection.findMany, Collection.logAfter_read]
    exact congrArg _ (event?_of_request _ fun _ => rfl)
  | advance cursor =>
    have hw : (client.operate t type (.advance cursor)).2.world.log = client.world.log := by
      simp only [operate]
      split
      · rfl
      · rename_i stream hs
        cases stream <;> rfl
    rw [hw]
    exact (List.append_nil _).symm
  | drain cursor => exact (List.append_nil _).symm
  | start database? => exact log_start client t _
  | commit index =>
    exact log_finish client index fun s w =>
      congrArg (fun result => result.2.log) (Session.perform_commit t w s)
  | rollback index =>
    exact log_finish client index fun s w =>
      congrArg (fun result => result.2.log) (Session.perform_rollback t w s)
  | drop index =>
    exact log_finish client index fun s w => congrArg (fun result => result.2.log) (s.perform_drop w)

end Client
end DocWire
