import DocWire.Proofs.Client.Conclusions

/-!
# Operations in sessions

A session lends its token to the requests of its own database and refuses all others. Main statements:
`request?_of_place`, in a session an operation has the request that it has without one, under the
session's token; `operate_of_refused`, an operation whose request cannot be built fails by the error of
that; `call?_foreign` and `operate_foreign`, what becomes of an operation in a session of another
database.
-/
set_option autoImplicit false

namespace DocWire

/-! ## Tokens -/

/-- The same call under another token. Only requests have one to change. -/
def Call.withToken (token? : Option SessionToken) : Call → Call
  | .insert request => .insert { request with session? := token? }
  | .read request => .read { request with session? := token? }
  | .update request => .update { request with session? := token? }
  | .delete request => .delete { request with session? := token? }
  | call => call

namespace Collection
variable {α : Type} (c : Collection α)

/-- A call in a session: the call that there would be without one, under the session's token. -/
def inSession (session? : Option Session) (call? : Except Failure Call) : Except Failure Call := do
  let call ← call?
  let token? ← c.tokenOf session?
  .ok (call.withToken token?)

theorem tokenOf_eq_ok_iff {session? : Option Session} {token? : Option SessionToken} :
    c.tokenOf session? = .ok token? ↔
      (∀ s ∈ session?, s.database = c.database) ∧ token? = session?.map Session.token := by
  cases session? with
  | none => simp [tokenOf, eq_comm]
  | some s =>
    unfold tokenOf Session.tokenFor
    by_cases hd : s.database = c.database
    · simp [hd, bind_ok, eq_comm]
    · simp [hd, bind_error]

theorem tokenOf_own {s : Session} (hd : s.database = c.database) :
    c.tokenOf (some s) = .ok (some s.token) :=
  c.tokenOf_eq_ok_iff.2 ⟨by simpa using hd, rfl⟩

theorem tokenOf_foreign {s : Session} (hd : s.database ≠ c.database) :
    c.tokenOf (some s) = .error (.foreignSession s.token.txId s.database c.database) := by
  have ht : s.tokenFor c.database = .error (.foreignSession s.token.txId s.database c.database) :=
    if_neg hd
  simp only [tokenOf, ht, bind_error]

variable (session? : Option Session)

theorem insertRequest_inSession (docs : List α) :
    (c.insertRequest docs session?).map Call.insert =
      c.inSession session? ((c.insertRequest docs none).map .insert) := by
  unfold insertRequest inSession
  cases c.type.writeAll docs with
  | error e => rfl
  | ok documents => cases c.tokenOf session? <;> rfl

theorem readRequest_inSession (filter? : Option Filter) (projection? : Option Projection)
    (limit? : Option Nat) :
    (c.readRequest filter? projection? limit? session?).map Call.read =
      c.inSession session? ((c.readRequest filter? projection? limit? none).map .read) := by
  unfold readRequest inSession
  cases c.optionalFilterBytes filter? with
  | error e => rfl
  | ok filter =>
    cases c.projectionBytes projection? with
    | error e => rfl
    | ok fields? => cases c.tokenOf session? <;> rfl

theorem lookupRequest_inSession (key : Fields) :
    (c.lookupRequest key session?).map Call.read =
      c.inSession session? ((c.lookupRequest key none).map .read) := by
  unfold lookupRequest
  cases c.keyPaths key with
  | error e => rfl
  | ok paths => exact c.readRequest_inSession session? _ none (some 1)

theorem updateRequest_inSession (filter : Filter) (update : Update) :
    (c.updateRequest filter update session?).map Call.update =
      c.inSession session? ((c.updateRequest filter update none).map .update) := by
  unfold updateRequest inSession
  cases c.filterBytes filter with
  | error e => rfl
  | ok filter =>
    cases c.updateBytes update with
    | error e => rfl
    | ok fields => cases c.tokenOf session? <;> rfl

theorem deleteRequest_inSession (filter : Filter) :
    (c.deleteRequest filter session?).map Call.delete =
      c.inSession session? ((c.deleteRequest filter none).map .delete) := by
  unfold deleteRequest inSession
  cases c.filterBytes filter with
  | error e => rfl
  | ok filter => cases c.tokenOf session? <;> rfl

end Collection

/-! ## Operations -/

namespace Operation
variable {α : Type}

/-- Where an operation of a collection runs. Others run nowhere. -/
def place? : Operation α → Option Place
  | .insertOne place _ => some place
  | .insertMany place _ => some place
  | .findMany place _ _ => some place
  | .findOne place _ _ => some place
  | .findByKey place _ => some place
  | .updateMany place _ _ => some place
  | .deleteMany place _ => some place
  | .openCursor place _ _ => some place
  | _ => none

/-- The same operation outside of sessions. -/
def alone : Operation α → Operation α
  | .insertOne place doc => .insertOne { place with session? := none } doc
  | .insertMany place docs => .insertMany { place with session? := none } docs
  | .findMany place filter? projection? =>
    .findMany { place with session? := none } filter? projection?
  | .findOne place filter? projection? => .findOne { place with session? := none } filter? projection?
  | .findByKey place key => .findByKey { place with session? := none } key
  | .updateMany place filter update => .updateMany { place with session? := none } filter update
  | .deleteMany place filter => .deleteMany { place with session? := none } filter
  | .openCursor place filter? projection? =>
    .openCursor { place with session? := none } filter? projection?
  | operation => operation

variable {operation : Operation α}

theorem place?_alone {place : Place} (hp : operation.place? = some place) :
    operation.alone.place? = some { place with session? := none } := by
  cases operation with
  | advance _ | drain _ | start _ | commit _ | rollback _ | drop _ => cases hp
  | _ =>
    cases hp
    rfl

theorem alone_of_place?_eq_none (hp : operation.place? = none) : operation.alone = operation := by
  cases operation with
  | advance _ | drain _ | start _ | commit _ | rollback _ | drop _ => rfl
  | _ => cases hp

end Operation

namespace Client
variable {σ α : Type}

/-- The request of an operation of a collection, or why it cannot be built. -/
def request? (client : Client σ) (type : DocumentType α) : Operation α → Option (Except Failure Call)
  | .insertOne place doc =>
    some (((client.collection type place).insertRequest [doc] (client.placeSession? place)).map
      .insert)
  | .insertMany place docs =>
    some (((client.collection type place).insertRequest docs (client.placeSession? place)).map .insert)
  | .findMany place filter? projection? =>
    some (((client.collection type place).readRequest filter? projection? none
      (client.placeSession? place)).map .read)
  | .findOne place filter? projection? =>
    some (((client.collection type place).readRequest filter? projection? (some 1)
      (client.placeSession? place)).map .read)
  | .findByKey place key =>
    some (((client.collection type place).lookupRequest key (client.placeSession? place)).map .read)
  | .updateMany place filter update =>
    some (((client.collection type place).updateRequest filter update
      (client.placeSession? place)).map .update)
  | .deleteMany place filter =>
    some (((client.collection type place).deleteRequest filter (client.placeSession? place)).map
      .delete)
  | .openCursor place filter? projection? =>
    some (((client.collection type place).readRequest filter? projection? none
      (client.placeSession? place)).map .read)
  | _ => none

variable {client : Client σ} {type : DocumentType α} {operation : Operation α} {place : Place}
  {built : Except Failure Call} {e : Failure}

theorem exists_request? (client : Client σ) (type : DocumentType α)
    (hp : operation.place? = some place) : ∃ built, client.request? type operation = some built := by
  cases operation with
  | advance _ | drain _ | start _ | commit _ | rollback _ | drop _ => cases hp
  | _ => exact ⟨_, rfl⟩

theorem toOption_map {ρ : Type} (request? : Except Failure ρ) (sent : ρ → Call) :
    (request?.map sent).toOption = request?.toOption.map sent := by
  cases request? <;> rfl

theorem call?_of_request? (h : client.request? type operation = some built) :
    client.call? type operation = built.toOption := by
  cases operation <;> cases h <;> exact (toOption_map _ _).symm

/-- In a session an operation has its request under the session's token, if the session is of the
database in which it runs. -/
theorem request?_of_place (hp : operation.place? = some place)
    (h : client.request? type operation.alone = some built) :
    client.request? type operation =
      some ((client.collection type place).inSession (client.placeSession? place) built) := by
  cases operation with
  | insertOne place doc | insertMany place docs =>
    cases hp
    cases h
    exact congrArg some (Collection.insertRequest_inSession _ _ _)
  | findMany place filter? projection? | findOne place filter? projection?
  | openCursor place filter? projection? =>
    cases hp
    cases h
    exact congrArg some (Collection.readRequest_inSession _ _ _ _ _)
  | findByKey place key =>
    cases hp
    cases h
    exact congrArg some (Collection.lookupRequest_inSession _ _ _)
  | updateMany place filter update =>
    cases hp
    cases h
    exact congrArg some (Collection.updateRequest_inSession _ _ _ _)
  | deleteMany place filter =>
    cases hp
    cases h
    exact congrArg some (Collection.deleteRequest_inSession _ _ _)
  | advance _ | drain _ | start _ | commit _ | rollback _ | drop _ => cases hp

/-- The call of an operation in a session is its call without one, under the session's token. -/
theorem call?_eq_some_iff_of_place {call : Call} (hp : operation.place? = some place) :
    client.call? type operation = some call ↔
      ∃ bare token?, client.call? type operation.alone = some bare ∧
        (client.collection type place).tokenOf (client.placeSession? place) = .ok token? ∧
        call = bare.withToken token? := by
  obtain ⟨built, hb⟩ := exists_request? client type (Operation.place?_alone hp)
  rw [call?_of_request? hb, call?_of_request? (request?_of_place hp hb), Collection.inSession]
  cases built with
  | error e => simp [bind_error, Except.toOption]
  | ok bare =>
    cases (client.collection type place).tokenOf (client.placeSession? place) with
    | error e => simp [bind_ok, bind_error, Except.toOption]
    | ok token? => simp [bind_ok, Except.toOption, eq_comm]

/-! ## Refusals -/

theorem exchange_of_refused {ρ β γ : Type} {request? : Except Failure ρ} {sent : ρ → Call}
    (h : request?.map sent = .error e) (send : ρ → σ → Except Failure β × σ)
    (finish : β → Except Failure γ) (s : σ) : exchange request? send finish s = (.error e, s) := by
  rw [map_eq_error_iff.1 h]
  rfl

theorem result_perform {β : Type} {action : Action σ β} (s : σ) (outcome : β → Outcome α)
    (h : action.effect client.world = (.error e, s)) :
    (client.perform action outcome).1 = .error e := by
  have hr : (action.perform client.world).1 = .error e := congrArg Prod.fst h
  exact map_eq_error_iff.2 hr

theorem result_openCursor {action : Action σ DocumentStream} {s : σ}
    (h : action.effect client.world = (.error e, s)) :
    (client.openCursor action : Except Failure (Outcome α) × Client σ).1 = .error e := by
  rw [result_of_openCursor, h]
  rfl

/-- An operation whose request cannot be built fails by the error of that. -/
theorem operate_of_refused (t : Transport σ)
    (h : client.request? type operation = some (.error e)) :
    (client.operate t type operation).1 = .error e := by
  cases operation with
  | insertOne place doc =>
    exact result_perform _ _ ((Collection.effect_insertOne ..).trans
      (exchange_of_refused (Option.some.inj h) _ _ _))
  | insertMany place docs =>
    exact result_perform _ _ ((Collection.effect_insertMany ..).trans
      (exchange_of_refused (Option.some.inj h) _ _ _))
  | findMany place filter? projection? =>
    refine result_perform client.world.transport _ ?_
    rw [Action.effect_bind_ofExcept, Collection.effect_findMany,
      exchange_of_refused (Option.some.inj h)]
    rfl
  | findOne place filter? projection? =>
    exact result_perform _ _ ((Collection.effect_findOne ..).trans
      (exchange_of_refused (Option.some.inj h) _ _ _))
  | findByKey place key =>
    exact result_perform _ _ ((Collection.effect_findByKey ..).trans
      (exchange_of_refused (Option.some.inj h) _ _ _))
  | updateMany place filter update =>
    exact result_perform _ _ ((Collection.effect_updateMany ..).trans
      (exchange_of_refused (Option.some.inj h) _ _ _))
  | deleteMany place filter =>
    exact result_perform _ _ ((Collection.effect_deleteMany ..).trans
      (exchange_of_refused (Option.some.inj h) _ _ _))
  | openCursor place filter? projection? =>
    exact result_openCursor ((Collection.effect_findMany ..).trans
      (exchange_of_refused (Option.some.inj h) _ _ _))
  | advance _ | drain _ | start _ | commit _ | rollback _ | drop _ => cases h

section Foreign
variable {s : Session}

/-- In a session of another database an operation makes no call. -/
theorem call?_foreign (hp : operation.place? = some place) (hs : client.placeSession? place = some s)
    (hd : s.database ≠ client.databaseName place.database?) : client.call? type operation = none := by
  refine Option.eq_none_iff_forall_ne_some.2 fun call hc => ?_
  obtain ⟨bare, token?, -, ht, -⟩ := (call?_eq_some_iff_of_place hp).1 hc
  rw [hs, Collection.tokenOf_foreign _ hd] at ht
  cases ht

/-- Only a session of another database keeps an operation from a call that it makes without one. -/
theorem exists_foreign {call : Call} (hp : operation.place? = some place)
    (ha : client.call? type operation.alone = some call) (hn : client.call? type operation = none) :
    ∃ s, client.placeSession? place = some s ∧ s.database ≠ client.databaseName place.database? := by
  -- With a token the operation would make the call.
  have ht : ∀ token?,
      (client.collection type place).tokenOf (client.placeSession? place) ≠ .ok token? := by
    intro token? ht
    have hc := (call?_eq_some_iff_of_place hp).2 ⟨call, token?, ha, ht, rfl⟩
    exact Option.some_ne_none _ (hc.symm.trans hn)
  cases hs : client.placeSession? place with
  | none =>
    rw [hs] at ht
    exact absurd rfl (ht none)
  | some s =>
    rw [hs] at ht
    exact ⟨s, rfl, fun hd => ht _ (Collection.tokenOf_own _ hd)⟩

/-- In a session of another database an operation fails as it fails without a session, and where it
would make a call without one, the session is the error. -/
theorem operate_foreign (t : Transport σ) (hp : operation.place? = some place)
    (hs : client.placeSession? place = some s)
    (hd : s.database ≠ client.databaseName place.database?) :
    (∃ call, client.call? type operation.alone = some call ∧
        (client.operate t type operation).1 =
          .error (.foreignSession s.token.txId s.database (client.databaseName place.database?))) ∨
      (client.call? type operation.alone = none ∧
        ∃ e, (client.operate t type operation.alone).1 = .error e ∧
          (client.operate t type operation).1 = .error e) := by
  obtain ⟨built, hb⟩ := exists_request? client type (Operation.place?_alone hp)
  have hr := request?_of_place hp hb
  cases built with
  | error e =>
    exact .inr ⟨call?_of_request? hb, e, operate_of_refused t hb, operate_of_refused t hr⟩
  | ok call =>
    rw [hs, Collection.inSession, bind_ok, Collection.tokenOf_foreign _ hd] at hr
    exact .inl ⟨call, call?_of_request? hb, operate_of_refused t hr⟩

end Foreign
end Client
end DocWire
