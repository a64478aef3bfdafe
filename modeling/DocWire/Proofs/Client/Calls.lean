import DocWire.Proofs.Client.Requests
import DocWire.Transport.Recording

/-!
# The calls of a client

What operations of a client do to the transport, and what a transport that records its calls has
recorded after them. Main statements: `transport_operate`, an operation does what the call that `call?`
names does and nothing else; `calls_operate`, it adds this call and no other; `call?_eq_read` and its
like, what calls of a kind can be; and `forall_history`, what holds of the calls of every step holds of
those of a run.
-/
set_option autoImplicit false

namespace DocWire

/-! ## Transports that record -/

namespace Transport
variable {σ : Type}

/-- What a call makes of the state of a transport. -/
def deliver (t : Transport σ) : Call → σ → σ
  | .insert request, s => (t.insert request s).2
  | .read request, s => (t.read request s).2
  | .update request, s => (t.update request s).2
  | .delete request, s => (t.delete request s).2
  | .start database, s => (t.start database s).2
  | .commit database token, s => (t.commit database token s).2
  | .rollback database token, s => (t.rollback database token s).2

/-- What a call makes of the state of a transport, if there is one. -/
def deliver? (t : Transport σ) : Option Call → σ → σ
  | none, s => s
  | some call, s => t.deliver call s

theorem state_exchange {t : Transport σ} {ρ α β : Type} {send : ρ → σ → Except Failure β × σ}
    {sent : ρ → Call} (h : ∀ request s, (send request s).2 = t.deliver (sent request) s)
    (request? : Except Failure ρ) (finish : β → Except Failure α) (s : σ) :
    (exchange request? send finish s).2 = t.deliver? (request?.toOption.map sent) s := by
  cases request? with
  | error e => rfl
  | ok request => exact h request s

end Transport

/-- Every call of a transport is put at the end of a record of its calls, whatever comes of it. -/
structure Transport.Records {σ : Type} (t : Transport σ) (calls : σ → List Call) : Prop where
  insert : ∀ request s, calls (t.insert request s).2 = calls s ++ [.insert request]
  read : ∀ request s, calls (t.read request s).2 = calls s ++ [.read request]
  update : ∀ request s, calls (t.update request s).2 = calls s ++ [.update request]
  delete : ∀ request s, calls (t.delete request s).2 = calls s ++ [.delete request]
  start : ∀ database s, calls (t.start database s).2 = calls s ++ [.start database]
  commit : ∀ database token s, calls (t.commit database token s).2 = calls s ++ [.commit database token]
  rollback : ∀ database token s,
    calls (t.rollback database token s).2 = calls s ++ [.rollback database token]

namespace Transport.Records
variable {σ : Type} {t : Transport σ} {calls : σ → List Call}

theorem deliver (h : t.Records calls) (call : Call) (s : σ) :
    calls (t.deliver call s) = calls s ++ [call] := by
  cases call with
  | insert request => exact h.insert request s
  | read request => exact h.read request s
  | update request => exact h.update request s
  | delete request => exact h.delete request s
  | start database => exact h.start database s
  | commit database token => exact h.commit database token s
  | rollback database token => exact h.rollback database token s

theorem deliver? (h : t.Records calls) (call? : Option Call) (s : σ) :
    calls (t.deliver? call? s) = calls s ++ call?.toList := by
  cases call? with
  | none => exact (List.append_nil _).symm
  | some call => exact h.deliver call s

end Transport.Records

namespace Recording

theorem calls_record (call : Call) (r : Recording) : (r.record call).2.calls = r.calls ++ [call] := by
  unfold record
  cases r.failure? <;> rfl

theorem calls_respond {α : Type} (call : Call) {answer : Recording → Except Failure α × Recording}
    (h : ∀ r, (answer r).2.calls = r.calls) (r : Recording) :
    (respond call answer r).2.calls = r.calls ++ [call] := by
  have hc := calls_record call r
  unfold respond
  cases hr : r.record call with
  | mk result r' =>
    rw [hr] at hc
    cases result with
    | error e => exact hc
    | ok _ => exact (h r').trans hc

theorem calls_takeKeys (count : Nat) (r : Recording) : (takeKeys count r).2.calls = r.calls := by
  induction count generalizing r with
  | zero => rfl
  | succ count ih => exact ih { r with nextKey := r.nextKey + 1 }

theorem calls_takeBatch (limit? : Option Nat) (r : Recording) :
    (takeBatch limit? r).2.calls = r.calls := rfl

theorem records : transport.Records calls where
  insert request := calls_respond (.insert request) (calls_takeKeys request.documents.length)
  read request := calls_respond (.read request) (calls_takeBatch request.limit?)
  update request := calls_respond (.update request) fun _ => rfl
  delete request := calls_respond (.delete request) fun _ => rfl
  start database := calls_respond (.start database) fun _ => rfl
  commit database token := calls_record (.commit database token)
  rollback database token := calls_record (.rollback database token)

theorem calls_apply (control : Control) (r : Recording) : (control.apply r).calls = r.calls := by
  cases control <;> rfl

end Recording

/-! ## Operations -/

/-- The filter that an operation is given, if it is given one; a key is a filter. -/
def Operation.filter? {α : Type} : Operation α → Option Filter
  | .findMany _ filter? _ => filter?
  | .findOne _ filter? _ => filter?
  | .openCursor _ filter? _ => filter?
  | .findByKey _ key => some (.selector (.equals key))
  | .updateMany _ filter _ => some filter
  | .deleteMany _ filter => some filter
  | _ => none

namespace Client
variable {σ α κ : Type}

/-- The call that an operation makes, if it gets to make one. -/
def call? (client : Client σ) (type : DocumentType α) : Operation α → Option Call
  | .insertOne place doc =>
    ((client.collection type place).insertRequest [doc] (client.placeSession? place)).toOption.map
      .insert
  | .insertMany place docs =>
    ((client.collection type place).insertRequest docs (client.placeSession? place)).toOption.map
      .insert
  | .findMany place filter? projection? =>
    ((client.collection type place).readRequest filter? projection? none
      (client.placeSession? place)).toOption.map .read
  | .findOne place filter? projection? =>
    ((client.collection type place).readRequest filter? projection? (some 1)
      (client.placeSession? place)).toOption.map .read
  | .findByKey place key =>
    ((client.collection type place).lookupRequest key (client.placeSession? place)).toOption.map .read
  | .updateMany place filter update =>
    ((client.collection type place).updateRequest filter update
      (client.placeSession? place)).toOption.map .update
  | .deleteMany place filter =>
    ((client.collection type place).deleteRequest filter (client.placeSession? place)).toOption.map
      .delete
  | .openCursor place filter? projection? =>
    ((client.collection type place).readRequest filter? projection? none
      (client.placeSession? place)).toOption.map .read
  | .advance _ => none
  | .drain _ => none
  | .start database? => some (.start (client.databaseName database?))
  | .commit session => (client.session? session).map fun s => .commit s.database s.token
  | .rollback session => (client.session? session).map fun s => .rollback s.database s.token
  | .drop _ => none

theorem transport_perform {β : Type} (client : Client σ) (action : Action σ β)
    (outcome : β → Outcome α) :
    (client.perform action outcome).2.world.transport = (action.effect client.world).2 := rfl

theorem transport_openCursor (client : Client σ) (action : Action σ DocumentStream) :
    (client.openCursor action : Except Failure (Outcome α) × Client σ).2.world.transport =
      (action.effect client.world).2 := by
  unfold openCursor Action.effect
  obtain ⟨result, w⟩ := action.perform client.world
  cases result <;> rfl

theorem transport_start (client : Client σ) (t : Transport σ) (database : String) :
    (client.start t database : Except Failure (Outcome α) × Client σ).2.world.transport =
      (t.start database client.world.transport).2 := by
  unfold start
  rw [Session.perform_start]
  obtain ⟨result, s⟩ := t.start database client.world.transport
  cases result <;> rfl

theorem transport_finish (client : Client σ) (index : Nat) (action : Session → Action σ Unit) :
    (client.finish index action : Except Failure (Outcome α) × Client σ).2.world.transport =
      match client.session? index with
      | none => client.world.transport
      | some session => ((action session).effect client.world).2 := by
  unfold finish
  cases client.session? index <;> rfl

/-- An operation leaves the transport to the call that it makes, and else as it was. -/
theorem transport_operate (t : Transport σ) (client : Client σ) (type : DocumentType α)
    (operation : Operation α) :
    (client.operate t type operation).2.world.transport =
      t.deliver? (client.call? type operation) client.world.transport := by
  cases operation with
  | insertOne place doc =>
    rw [operate, transport_perform, Collection.effect_insertOne]
    exact Transport.state_exchange (fun _ _ => rfl) _ _ _
  | insertMany place docs =>
    rw [operate, transport_perform, Collection.effect_insertMany]
    exact Transport.state_exchange (fun _ _ => rfl) _ _ _
  | findMany place filter? projection? =>
    rw [operate, transport_perform, Action.effect_bind_ofExcept, Collection.effect_findMany]
    exact Transport.state_exchange (fun _ _ => rfl) _ _ _
  | findOne place filter? projection? =>
    rw [operate, transport_perform, Collection.effect_findOne]
    exact Transport.state_exchange (fun _ _ => rfl) _ _ _
  | findByKey place key =>
    rw [operate, transport_perform, Collection.effect_findByKey]
    exact Transport.state_exchange (fun _ _ => rfl) _ _ _
  | updateMany place filter update =>
    rw [operate, transport_perform, Collection.effect_updateMany]
    exact Transport.state_exchange (fun _ _ => rfl) _ _ _
  | deleteMany place filter =>
    rw [operate, transport_perform, Collection.effect_deleteMany]
    exact Transport.state_exchange (fun _ _ => rfl) _ _ _
  | openCursor place filter? projection? =>
    rw [operate, transport_openCursor, Collection.effect_findMany]
    exact Transport.state_exchange (fun _ _ => rfl) _ _ _
  | advance cursor =>
    simp only [operate]
    split
    · rfl
    · rename_i stream hs
      cases stream <;> rfl
  | drain cursor => rfl
  | start database? =>
    rw [operate, transport_start]
    rfl
  | commit session =>
    rw [operate, transport_finish, call?]
    cases client.session? session with
    | none => rfl
    | some s =>
      exact congrArg (fun result => result.2.transport) (Session.perform_commit t client.world s)
  | rollback session =>
    rw [operate, transport_finish, call?]
    cases client.session? session with
    | none => rfl
    | some s =>
      exact congrArg (fun result => result.2.transport) (Session.perform_rollback t client.world s)
  | drop session =>
    rw [operate, transport_finish]
    cases client.session? session with
    | none => rfl
    | some s => exact congrArg (fun result => result.2.transport) (s.perform_drop client.world)

/-- An operation adds the call that it makes, and no other. -/
theorem calls_operate {t : Transport σ} {calls : σ → List Call} (h : t.Records calls)
    (client : Client σ) (type : DocumentType α) (operation : Operation α) :
    calls (client.operate t type operation).2.world.transport =
      calls client.world.transport ++ (client.call? type operation).toList := by
  rw [transport_operate, h.deliver?]

/-! ## Calls by kind -/

theorem sent_iff {ρ : Type} {request? : Except Failure ρ} {sent : ρ → Call} {call : Call} :
    request?.toOption.map sent = some call ↔ ∃ request, request? = .ok request ∧ sent request = call := by
  cases request? with
  | error e => simp [Except.toOption]
  | ok request => simp [Except.toOption]

variable {client : Client σ} {type : DocumentType α} {operation : Operation α}

theorem call?_eq_read {request : ReadRequest}
    (h : client.call? type operation = some (.read request)) :
    ∃ place projection? limit?, (client.collection type place).readRequest operation.filter?
      projection? limit? (client.placeSession? place) = .ok request := by
  cases operation with
  | findMany place filter? projection? | openCursor place filter? projection? =>
    obtain ⟨request, hr, he⟩ := sent_iff.1 h
    cases he
    exact ⟨place, projection?, none, hr⟩
  | findOne place filter? projection? =>
    obtain ⟨request, hr, he⟩ := sent_iff.1 h
    cases he
    exact ⟨place, projection?, some 1, hr⟩
  | findByKey place key =>
    obtain ⟨request, hr, he⟩ := sent_iff.1 h
    cases he
    obtain ⟨paths, -, hr⟩ := bind_eq_ok_iff.1 hr
    exact ⟨place, none, some 1, hr⟩
  | insertOne place doc | insertMany place docs | updateMany place filter update
  | deleteMany place filter =>
    obtain ⟨request, -, he⟩ := sent_iff.1 h
    cases he
  | commit session | rollback session =>
    obtain ⟨s, -, he⟩ := Option.map_eq_some_iff.1 h
    cases he
  | start database? | advance cursor | drain cursor | drop session => cases h

theorem call?_eq_update {request : UpdateRequest}
    (h : client.call? type operation = some (.update request)) :
    ∃ place filter update, operation.filter? = some filter ∧
      (client.collection type place).updateRequest filter update (client.placeSession? place) =
        .ok request := by
  cases operation with
  | updateMany place filter update =>
    obtain ⟨request, hr, he⟩ := sent_iff.1 h
    cases he
    exact ⟨place, filter, update, rfl, hr⟩
  | insertOne place doc | insertMany place docs | findMany place filter? projection?
  | openCursor place filter? projection? | findOne place filter? projection? | findByKey place key
  | deleteMany place filter =>
    obtain ⟨request, -, he⟩ := sent_iff.1 h
    cases he
  | commit session | rollback session =>
    obtain ⟨s, -, he⟩ := Option.map_eq_some_iff.1 h
    cases he
  | start database? | advance cursor | drain cursor | drop session => cases h

theorem call?_eq_delete {request : DeleteRequest}
    (h : client.call? type operation = some (.delete request)) :
    ∃ place filter, operation.filter? = some filter ∧
      (client.collection type place).deleteRequest filter (client.placeSession? place) =
        .ok request := by
  cases operation with
  | deleteMany place filter =>
    obtain ⟨request, hr, he⟩ := sent_iff.1 h
    cases he
    exact ⟨place, filter, rfl, hr⟩
  | insertOne place doc | insertMany place docs | findMany place filter? projection?
  | openCursor place filter? projection? | findOne place filter? projection? | findByKey place key
  | updateMany place filter update =>
    obtain ⟨request, -, he⟩ := sent_iff.1 h
    cases he
  | commit session | rollback session =>
    obtain ⟨s, -, he⟩ := Option.map_eq_some_iff.1 h
    cases he
  | start database? | advance cursor | drain cursor | drop session => cases h

/-! ## Runs -/

/-- The call that a step makes, if it makes one. -/
def stepCall? (client : Client σ) (type : DocumentType α) : Step α κ → Option Call
  | .operation operation => client.call? type operation
  | .control _ => none

theorem calls_step {t : Transport σ} {calls : σ → List Call} (h : t.Records calls)
    {apply : κ → σ → σ} (ha : ∀ instruction s, calls (apply instruction s) = calls s)
    (client : Client σ) (type : DocumentType α) (step : Step α κ) :
    calls (client.step t apply type step).2.world.transport =
      calls client.world.transport ++ (client.stepCall? type step).toList := by
  cases step with
  | operation operation => exact calls_operate h client type operation
  | control instruction =>
    rw [stepCall?, Option.toList_none, List.append_nil]
    exact ha instruction client.world.transport

/-- The steps of a run, each with the calls that were recorded while it was taken. -/
def history (t : Transport σ) (apply : κ → σ → σ) (calls : σ → List Call) (type : DocumentType α) :
    List (Step α κ) → Client σ → List (Step α κ × List Call)
  | [], _ => []
  | step :: rest, client =>
    let after := (client.step t apply type step).2
    (step, (calls after.world.transport).drop (calls client.world.transport).length) ::
      history t apply calls type rest after

section Run
variable {t : Transport σ} {calls : σ → List Call} {apply : κ → σ → σ}

/-- What holds of every call that a step makes, in whatever state of the client, holds of the calls
of a run. -/
theorem forall_history (h : t.Records calls)
    (ha : ∀ instruction s, calls (apply instruction s) = calls s) (type : DocumentType α)
    {P : Step α κ → Call → Prop}
    (hp : ∀ (client : Client σ) (step : Step α κ), ∀ call ∈ client.stepCall? type step, P step call)
    (steps : List (Step α κ)) (client : Client σ) :
    ∀ entry ∈ history t apply calls type steps client, ∀ call ∈ entry.2, P entry.1 call := by
  induction steps generalizing client with
  | nil => exact fun entry he => absurd he List.not_mem_nil
  | cons step rest ih =>
    intro entry he call hc
    have hs := calls_step h ha client type step
    rcases List.mem_cons.1 he with rfl | he
    · rw [hs, List.drop_left, Option.mem_toList] at hc
      exact hp client step call hc
    · exact ih _ entry he call hc

end Run
end Client
end DocWire
