import DocWire.Proofs.Client.Calls

/-!
# What operations make of answers

An operation whose call is made comes to a result that depends on nothing but the answer.
`Client.Concludes` has one case for each operation that can make a call. Main statement:
`exists_concludes`, the result is the one of the case, so that proofs about results need not follow the
steps of an operation.
-/
set_option autoImplicit false

namespace DocWire

theorem Collection.length_of_insertRequest {α : Type} {c : Collection α} {docs : List α}
    {session? : Option Session} {request : InsertRequest}
    (h : c.insertRequest docs session? = .ok request) : request.documents.length = docs.length := by
  obtain ⟨documents, token?, hd, -, rfl⟩ := insertRequest_eq_ok_iff.1 h
  exact DocumentType.length_of_writeAll hd

namespace Client
variable {σ α : Type}

/-- The result of an operation whose call is made, from the answer to the call. -/
inductive Concludes (t : Transport σ) (client : Client σ) (type : DocumentType α) :
    Operation α → Call → Except Failure (Outcome α) → Prop
  | insertOne (place : Place) (doc : α) (request : InsertRequest)
    (length_eq : request.documents.length = 1) :
    Concludes t client type (.insertOne place doc) (.insert request)
      (((t.insert request client.world.transport).1 >>= fun payloads =>
        Collection.withKeys type [doc] payloads >>= Collection.lastInserted).map .document)
  | insertMany (place : Place) (docs : List α) (request : InsertRequest)
    (length_eq : request.documents.length = docs.length) :
    Concludes t client type (.insertMany place docs) (.insert request)
      (((t.insert request client.world.transport).1 >>= Collection.withKeys type docs).map .documents)
  | findMany (place : Place) (filter? : Option Filter) (projection? : Option Projection)
    (request : ReadRequest) :
    Concludes t client type (.findMany place filter? projection?) (.read request)
      (((t.read request client.world.transport).1 >>= fun stream => stream.collect type).map .documents)
  | findOne (place : Place) (filter? : Option Filter) (projection? : Option Projection)
    (request : ReadRequest) :
    Concludes t client type (.findOne place filter? projection?) (.read request)
      (((t.read request client.world.transport).1 >>= fun stream => stream.first type).map .optional)
  | findByKey (place : Place) (key : Fields) (request : ReadRequest) (paths : List String)
    (paths_eq : (client.collection type place).keyPaths key = .ok paths) :
    Concludes t client type (.findByKey place key) (.read request)
      (((t.read request client.world.transport).1 >>= fun stream =>
        stream.first type >>= (client.collection type place).found paths).map .document)
  | updateMany (place : Place) (filter : Filter) (update : Update) (request : UpdateRequest) :
    Concludes t client type (.updateMany place filter update) (.update request)
      ((t.update request client.world.transport).1.map .count)
  | deleteMany (place : Place) (filter : Filter) (request : DeleteRequest) :
    Concludes t client type (.deleteMany place filter) (.delete request)
      ((t.delete request client.world.transport).1.map .count)
  | openCursor (place : Place) (filter? : Option Filter) (projection? : Option Projection)
    (request : ReadRequest) :
    Concludes t client type (.openCursor place filter? projection?) (.read request)
      ((t.read request client.world.transport).1.map fun _ => .cursor client.cursors.length)
  | start (database? : Option String) :
    Concludes t client type (.start database?) (.start (client.databaseName database?))
      ((t.start (client.databaseName database?) client.world.transport).1.map fun token =>
        .session client.sessions.length ⟨client.databaseName database?, token, false⟩)
  | commit (index : Nat) (s : Session) (found : client.session? index = some s) :
    Concludes t client type (.commit index) (.commit s.database s.token)
      ((t.commit s.database s.token client.world.transport).1.map fun _ => .done)
  | rollback (index : Nat) (s : Session) (found : client.session? index = some s) :
    Concludes t client type (.rollback index) (.rollback s.database s.token)
      ((t.rollback s.database s.token client.world.transport).1.map fun _ => .done)

variable {client : Client σ} {t : Transport σ}

/-! ## Results of actions -/

theorem result_of_exchange {ρ β γ : Type} {action : Action σ γ} {outcome : γ → Outcome α}
    {request? : Except Failure ρ} {request : ρ} {send : ρ → σ → Except Failure β × σ}
    {finish : β → Except Failure γ} (hq : request? = .ok request)
    (h : action.effect client.world = exchange request? send finish client.world.transport) :
    (client.perform action outcome).1 =
      ((send request client.world.transport).1 >>= finish).map outcome := by
  subst hq
  exact congrArg (fun result => result.1.map outcome) h

theorem result_of_send {ρ β : Type} {action : Action σ β} {outcome : β → Outcome α}
    {request? : Except Failure ρ} {request : ρ} {send : ρ → σ → Except Failure β × σ}
    (hq : request? = .ok request)
    (h : action.effect client.world = exchange request? send .ok client.world.transport) :
    (client.perform action outcome).1 = (send request client.world.transport).1.map outcome := by
  rw [hq, exchange_ok] at h
  exact congrArg (fun result => result.1.map outcome) h

theorem result_of_openCursor (action : Action σ DocumentStream) :
    (client.openCursor action : Except Failure (Outcome α) × Client σ).1 =
      (action.effect client.world).1.map fun _ => .cursor client.cursors.length := by
  unfold openCursor Action.effect
  obtain ⟨result, w⟩ := action.perform client.world
  cases result <;> rfl

theorem result_of_start (database : String) :
    (client.start t database : Except Failure (Outcome α) × Client σ).1 =
      (t.start database client.world.transport).1.map fun token =>
        .session client.sessions.length ⟨database, token, false⟩ := by
  unfold start
  rw [Session.perform_start]
  obtain ⟨result, s⟩ := t.start database client.world.transport
  cases result <;> rfl

theorem result_of_finish {index : Nat} {s : Session} (hs : client.session? index = some s)
    (action : Session → Action σ Unit) :
    (client.finish index action : Except Failure (Outcome α) × Client σ).1 =
      ((action s).effect client.world).1.map fun _ => .done := by
  unfold finish
  rw [hs]
  rfl

/-! ## Operations -/

variable {type : DocumentType α} {operation : Operation α} {call : Call}

/-- An operation that makes a call comes to what it makes of the answer. -/
theorem exists_concludes (hc : client.call? type operation = some call) :
    ∃ result, (client.operate t type operation).1 = result ∧
      client.Concludes t type operation call result := by
  cases operation with
  | insertOne place doc =>
    obtain ⟨request, hq, rfl⟩ := sent_iff.1 hc
    exact ⟨_, result_of_exchange hq (Collection.effect_insertOne ..),
      .insertOne place doc request (Collection.length_of_insertRequest hq)⟩
  | insertMany place docs =>
    obtain ⟨request, hq, rfl⟩ := sent_iff.1 hc
    exact ⟨_, result_of_exchange hq (Collection.effect_insertMany ..),
      .insertMany place docs request (Collection.length_of_insertRequest hq)⟩
  | findMany place filter? projection? =>
    obtain ⟨request, hq, rfl⟩ := sent_iff.1 hc
    refine ⟨_, result_of_exchange hq ?_, .findMany place filter? projection? request⟩
    rw [Action.effect_bind_ofExcept, Collection.effect_findMany, exchange_bind]
    rfl
  | findOne place filter? projection? =>
    obtain ⟨request, hq, rfl⟩ := sent_iff.1 hc
    exact ⟨_, result_of_exchange hq (Collection.effect_findOne ..),
      .findOne place filter? projection? request⟩
  | findByKey place key =>
    obtain ⟨request, hq, rfl⟩ := sent_iff.1 hc
    obtain ⟨paths, hk, -⟩ := bind_eq_ok_iff.1 hq
    refine ⟨_, result_of_exchange hq ?_, .findByKey place key request paths hk⟩
    refine (Collection.effect_findByKey ..).trans ?_
    rw [hk]
    rfl
  | updateMany place filter update =>
    obtain ⟨request, hq, rfl⟩ := sent_iff.1 hc
    exact ⟨_, result_of_send hq (Collection.effect_updateMany ..),
      .updateMany place filter update request⟩
  | deleteMany place filter =>
    obtain ⟨request, hq, rfl⟩ := sent_iff.1 hc
    exact ⟨_, result_of_send hq (Collection.effect_deleteMany ..), .deleteMany place filter request⟩
  | openCursor place filter? projection? =>
    obtain ⟨request, hq, rfl⟩ := sent_iff.1 hc
    refine ⟨_, ?_, .openCursor place filter? projection? request⟩
    rw [operate, result_of_openCursor, Collection.effect_findMany, hq, exchange_ok]
  | start database? =>
    cases hc
    exact ⟨_, result_of_start _, .start database?⟩
  | commit index =>
    obtain ⟨s, hs, rfl⟩ := Option.map_eq_some_iff.1 hc
    exact ⟨_, result_of_finish hs _, .commit index s hs⟩
  | rollback index =>
    obtain ⟨s, hs, rfl⟩ := Option.map_eq_some_iff.1 hc
    exact ⟨_, result_of_finish hs _, .rollback index s hs⟩
  | advance cursor | drain cursor | drop index => cases hc

end Client
end DocWire
