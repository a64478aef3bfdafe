import DocWire.Client.Run
import DocWire.Proofs.Results

/-!
# The requests of operations

An operation of a collection builds its request; when it has one, it sends it and makes its result of
the answer. `exchange` is this course. Main statements: `writeAll_eq_mapM`, `collect_eq_mapM` and
`mergeAll_eq_mapM`, documents are written, read and merged one by one; and one lemma for each operation,
which says what exchange it is.
-/
set_option autoImplicit false

namespace DocWire

/-! ## What actions do -/

namespace Action
variable {σ α β : Type}

theorem perform_bind (action : Action σ α) (f : α → Action σ β) (w : World σ) :
    (action >>= f).perform w =
      match action.perform w with
      | (.ok a, w) => (f a).perform w
      | (.error e, w) => (.error e, w) := by
  have hb : (action >>= f).perform w =
      ExceptT.bindCont f (action.perform w).1 (action.perform w).2 := rfl
  rw [hb]
  obtain ⟨result, w'⟩ := action.perform w
  cases result <;> rfl

/-- What an action comes to and what it makes of the transport, its log aside. -/
def effect (action : Action σ α) (w : World σ) : Except Failure α × σ :=
  ((action.perform w).1, (action.perform w).2.transport)

theorem effect_call (request : σ → Except Failure α × σ) (w : World σ) :
    (call request).effect w = request w.transport := rfl

theorem effect_note_bind (event : LogEvent) (f : Unit → Action σ β) (w : World σ) :
    (note event >>= f).effect w = (f ()).effect ⟨w.transport, w.log ++ [event]⟩ := rfl

theorem effect_ofExcept_bind (result : Except Failure α) (f : α → Action σ β) (w : World σ) :
    (ofExcept result >>= f).effect w =
      match result with
      | .ok a => (f a).effect w
      | .error e => (.error e, w.transport) := by
  cases result <;> rfl

/-- What is made of a result afterwards leaves the transport alone. -/
theorem effect_bind_ofExcept (action : Action σ α) (finish : α → Except Failure β) (w : World σ) :
    (action >>= fun a => ofExcept (finish a)).effect w =
      ((action.effect w).1 >>= finish, (action.effect w).2) := by
  unfold effect
  rw [perform_bind]
  obtain ⟨result, w'⟩ := action.perform w
  cases result <;> rfl

end Action

/-! ## Exchanges -/

section Exchange
variable {σ ρ α β γ : Type}

/-- Sends a request, unless it could not be built, and makes a result of the answer. -/
def exchange (request? : Except Failure ρ) (send : ρ → σ → Except Failure β × σ)
    (finish : β → Except Failure α) (s : σ) : Except Failure α × σ :=
  match request? with
  | .error e => (.error e, s)
  | .ok request => ((send request s).1 >>= finish, (send request s).2)

/-- The answer can be the result. -/
theorem exchange_ok (request : ρ) (send : ρ → σ → Except Failure β × σ) (s : σ) :
    exchange (.ok request) send .ok s = send request s := by
  have h : (send request s).1 >>= Except.ok = (send request s).1 := by
    cases (send request s).1 <;> rfl
  exact Prod.ext h rfl

theorem exchange_bind (request? : Except Failure ρ) (send : ρ → σ → Except Failure β × σ)
    (finish : β → Except Failure α) (next : α → Except Failure γ) (s : σ) :
    ((exchange request? send finish s).1 >>= next, (exchange request? send finish s).2) =
      exchange request? send (fun b => finish b >>= next) s := by
  cases request? with
  | error e => rfl
  | ok request =>
    have h : ((send request s).1 >>= finish) >>= next =
        (send request s).1 >>= fun b => finish b >>= next := by
      cases (send request s).1 <;> rfl
    unfold exchange
    rw [h]

end Exchange

/-! ## Documents one by one -/

section Lists
variable {α : Type} (type : DocumentType α)

theorem DocumentType.writeAll_eq_mapM (docs : List α) :
    type.writeAll docs = docs.mapM fun doc => (type.value doc).map Json.bytes := by
  induction docs with
  | nil => rfl
  | cons doc docs ih =>
    rw [List.mapM_cons, ← ih, DocumentType.writeAll]
    cases type.value doc <;> rfl

theorem DocumentType.length_of_writeAll {type : DocumentType α} {docs : List α}
    {documents : List ByteArray} (h : type.writeAll docs = .ok documents) :
    documents.length = docs.length := by
  rw [writeAll_eq_mapM] at h
  exact length_of_mapM h

theorem DocumentStream.collect_eq_mapM (stream : DocumentStream) :
    stream.collect type = stream.mapM (readItem type) := by
  induction stream with
  | nil => rfl
  | cons item rest ih =>
    rw [List.mapM_cons, ← ih]
    rfl

theorem Collection.mergeAll_eq_mapM (docs : List α) (payloads : List ByteArray) :
    mergeAll type docs payloads =
      (docs.zip payloads).mapM fun pair => generatedKeys pair.2 >>= type.merge pair.1 := by
  induction docs generalizing payloads with
  | nil => rfl
  | cons doc docs ih =>
    cases payloads with
    | nil => rfl
    | cons payload payloads =>
      rw [List.zip_cons_cons, List.mapM_cons, ← ih, bind_assoc]
      rfl

end Lists

/-! ## Collections -/

namespace Collection
variable {σ α : Type} (c : Collection α)

/-- The request of an insertion. -/
def insertRequest (docs : List α) (session? : Option Session) : Except Failure InsertRequest := do
  let documents ← c.type.writeAll docs
  let token? ← c.tokenOf session?
  .ok ⟨c.database, c.type.collection, documents, token?⟩

/-- The request of a read. -/
def readRequest (filter? : Option Filter) (projection? : Option Projection) (limit? : Option Nat)
    (session? : Option Session) : Except Failure ReadRequest := do
  let filter ← c.optionalFilterBytes filter?
  let fields? ← c.projectionBytes projection?
  let token? ← c.tokenOf session?
  .ok ⟨c.database, c.type.collection, filter, fields?, limit?, none, token?⟩

/-- The request of a lookup by key. -/
def lookupRequest (key : Fields) (session? : Option Session) : Except Failure ReadRequest := do
  let _ ← c.keyPaths key
  c.readRequest (some (.selector (.equals key))) none (some 1) session?

/-- The request of an update. -/
def updateRequest (filter : Filter) (update : Update) (session? : Option Session) :
    Except Failure UpdateRequest := do
  let filter ← c.filterBytes filter
  let fields ← c.updateBytes update
  let token? ← c.tokenOf session?
  .ok ⟨c.database, c.type.collection, filter, fields, token?⟩

/-- The request of a deletion. -/
def deleteRequest (filter : Filter) (session? : Option Session) : Except Failure DeleteRequest := do
  let filter ← c.filterBytes filter
  let token? ← c.tokenOf session?
  .ok ⟨c.database, c.type.collection, filter, token?⟩

section Parts
variable {c}

theorem filterBytes_eq_ok {filter : Filter} {bytes : ByteArray} (h : c.filterBytes filter = .ok bytes) :
    ∃ paths text, filter.paths = .ok paths ∧ c.type.checkPaths paths = .ok () ∧
      filter.encode = .ok text ∧ bytes = text.toUTF8 := by
  obtain ⟨paths, hp, h⟩ := bind_eq_ok_iff.1 h
  obtain ⟨_, hc, h⟩ := bind_eq_ok_iff.1 h
  obtain ⟨text, ht, h⟩ := bind_eq_ok_iff.1 h
  cases h
  exact ⟨paths, text, hp, hc, ht, rfl⟩

theorem insertRequest_eq_ok_iff {docs : List α} {session? : Option Session}
    {request : InsertRequest} :
    c.insertRequest docs session? = .ok request ↔
      ∃ documents token?, c.type.writeAll docs = .ok documents ∧ c.tokenOf session? = .ok token? ∧
        request = ⟨c.database, c.type.collection, documents, token?⟩ := by
  constructor
  · intro h
    obtain ⟨documents, hd, h⟩ := bind_eq_ok_iff.1 h
    obtain ⟨token?, ht, h⟩ := bind_eq_ok_iff.1 h
    cases h
    exact ⟨documents, token?, hd, ht, rfl⟩
  · rintro ⟨documents, token?, hd, ht, rfl⟩
    simp only [insertRequest, hd, ht, bind_ok]

theorem readRequest_eq_ok_iff {filter? : Option Filter} {projection? : Option Projection}
    {limit? : Option Nat} {session? : Option Session} {request : ReadRequest} :
    c.readRequest filter? projection? limit? session? = .ok request ↔
      ∃ filter fields? token?, c.optionalFilterBytes filter? = .ok filter ∧
        c.projectionBytes projection? = .ok fields? ∧ c.tokenOf session? = .ok token? ∧
        request = ⟨c.database, c.type.collection, filter, fields?, limit?, none, token?⟩ := by
  constructor
  · intro h
    obtain ⟨filter, hf, h⟩ := bind_eq_ok_iff.1 h
    obtain ⟨fields?, hp, h⟩ := bind_eq_ok_iff.1 h
    obtain ⟨token?, ht, h⟩ := bind_eq_ok_iff.1 h
    cases h
    exact ⟨filter, fields?, token?, hf, hp, ht, rfl⟩
  · rintro ⟨filter, fields?, token?, hf, hp, ht, rfl⟩
    simp only [readRequest, hf, hp, ht, bind_ok]

theorem updateRequest_eq_ok_iff {filter : Filter} {update : Update} {session? : Option Session}
    {request : UpdateRequest} :
    c.updateRequest filter update session? = .ok request ↔
      ∃ bytes fields token?, c.filterBytes filter = .ok bytes ∧ c.updateBytes update = .ok fields ∧
        c.tokenOf session? = .ok token? ∧
        request = ⟨c.database, c.type.collection, bytes, fields, token?⟩ := by
  constructor
  · intro h
    obtain ⟨bytes, hf, h⟩ := bind_eq_ok_iff.1 h
    obtain ⟨fields, hu, h⟩ := bind_eq_ok_iff.1 h
    obtain ⟨token?, ht, h⟩ := bind_eq_ok_iff.1 h
    cases h
    exact ⟨bytes, fields, token?, hf, hu, ht, rfl⟩
  · rintro ⟨bytes, fields, token?, hf, hu, ht, rfl⟩
    simp only [updateRequest, hf, hu, ht, bind_ok]

theorem deleteRequest_eq_ok_iff {filter : Filter} {session? : Option Session}
    {request : DeleteRequest} :
    c.deleteRequest filter session? = .ok request ↔
      ∃ bytes token?, c.filterBytes filter = .ok bytes ∧ c.tokenOf session? = .ok token? ∧
        request = ⟨c.database, c.type.collection, bytes, token?⟩ := by
  constructor
  · intro h
    obtain ⟨bytes, hf, h⟩ := bind_eq_ok_iff.1 h
    obtain ⟨token?, ht, h⟩ := bind_eq_ok_iff.1 h
    cases h
    exact ⟨bytes, token?, hf, ht, rfl⟩
  · rintro ⟨bytes, token?, hf, ht, rfl⟩
    simp only [deleteRequest, hf, ht, bind_ok]

end Parts

/-! ## Effects of operations -/

variable (t : Transport σ) (w : World σ)

theorem effect_insertMany (docs : List α) (session? : Option Session) :
    (c.insertMany t docs session?).effect w =
      exchange (c.insertRequest docs session?) t.insert (withKeys c.type docs) w.transport := by
  unfold insertMany insertRequest
  rw [Action.effect_ofExcept_bind]
  cases c.type.writeAll docs with
  | error e => rfl
  | ok documents =>
    simp only
    rw [Action.effect_ofExcept_bind]
    cases c.tokenOf session? with
    | error e => rfl
    | ok token? =>
      simp only
      rw [Action.effect_note_bind, Action.effect_bind_ofExcept, Action.effect_call]
      rfl

theorem effect_insertOne (doc : α) (session? : Option Session) :
    (c.insertOne t doc session?).effect w =
      exchange (c.insertRequest [doc] session?) t.insert
        (fun payloads => withKeys c.type [doc] payloads >>= lastInserted) w.transport := by
  unfold insertOne
  rw [Action.effect_bind_ofExcept, effect_insertMany, exchange_bind]

theorem effect_read (filter? : Option Filter) (projection? : Option Projection)
    (limit? : Option Nat) (session? : Option Session) :
    (c.read t filter? projection? limit? session?).effect w =
      exchange (c.readRequest filter? projection? limit? session?) t.read .ok w.transport := by
  unfold read readRequest
  rw [Action.effect_ofExcept_bind]
  cases c.optionalFilterBytes filter? with
  | error e => rfl
  | ok filter =>
    simp only
    rw [Action.effect_ofExcept_bind]
    cases c.projectionBytes projection? with
    | error e => rfl
    | ok fields? =>
      simp only
      rw [Action.effect_note_bind, Action.effect_ofExcept_bind]
      cases c.tokenOf session? with
      | error e => rfl
      | ok token? =>
        simp only
        rw [Action.effect_call]
        exact (exchange_ok _ t.read w.transport).symm

theorem effect_findMany (filter? : Option Filter) (projection? : Option Projection)
    (session? : Option Session) :
    (c.findMany t filter? projection? session?).effect w =
      exchange (c.readRequest filter? projection? none session?) t.read .ok w.transport :=
  c.effect_read t w filter? projection? none session?

theorem effect_findOne (filter? : Option Filter) (projection? : Option Projection)
    (session? : Option Session) :
    (c.findOne t filter? projection? session?).effect w =
      exchange (c.readRequest filter? projection? (some 1) session?) t.read
        (fun stream => stream.first c.type) w.transport := by
  unfold findOne
  rw [Action.effect_bind_ofExcept, effect_read, exchange_bind]
  rfl

theorem effect_findByKey (key : Fields) (session? : Option Session) :
    (c.findByKey t key session?).effect w =
      exchange (c.lookupRequest key session?) t.read
        (fun stream => c.keyPaths key >>= fun paths => stream.first c.type >>= c.found paths)
        w.transport := by
  -- The paths of the key are wanted again when nothing is found; they are the same then.
  unfold findByKey lookupRequest
  rw [Action.effect_ofExcept_bind]
  cases c.keyPaths key with
  | error e => rfl
  | ok paths =>
    simp only
    rw [Action.effect_bind_ofExcept, effect_findOne, exchange_bind]
    rfl

theorem effect_updateMany (filter : Filter) (update : Update) (session? : Option Session) :
    (c.updateMany t filter update session?).effect w =
      exchange (c.updateRequest filter update session?) t.update .ok w.transport := by
  unfold updateMany updateRequest
  rw [Action.effect_ofExcept_bind]
  cases c.filterBytes filter with
  | error e => rfl
  | ok filter =>
    simp only
    rw [Action.effect_ofExcept_bind]
    cases c.updateBytes update with
    | error e => rfl
    | ok fields =>
      simp only
      rw [Action.effect_note_bind, Action.effect_ofExcept_bind]
      cases c.tokenOf session? with
      | error e => rfl
      | ok token? =>
        simp only
        rw [Action.effect_call]
        exact (exchange_ok _ t.update w.transport).symm

theorem effect_deleteMany (filter : Filter) (session? : Option Session) :
    (c.deleteMany t filter session?).effect w =
      exchange (c.deleteRequest filter session?) t.delete .ok w.transport := by
  unfold deleteMany deleteRequest
  rw [Action.effect_ofExcept_bind]
  cases c.filterBytes filter with
  | error e => rfl
  | ok filter =>
    simp only
    rw [Action.effect_note_bind, Action.effect_ofExcept_bind]
    cases c.tokenOf session? with
    | error e => rfl
    | ok token? =>
      simp only
      rw [Action.effect_call]
      exact (exchange_ok _ t.delete w.transport).symm

end Collection

/-! ## Sessions -/

namespace Session
variable {σ : Type} (t : Transport σ) (w : World σ)

theorem perform_start (database : String) :
    (start t database).perform w =
      match t.start database w.transport with
      | (.ok token, s) => (.ok ⟨database, token, false⟩, ⟨s, w.log ++ [.began token.txId database]⟩)
      | (.error e, s) => (.error e, ⟨s, w.log⟩) := by
  have hc : (Action.call (t.start database)).perform w =
      ((t.start database w.transport).1, ⟨(t.start database w.transport).2, w.log⟩) := rfl
  unfold start
  rw [Action.perform_bind, hc]
  obtain ⟨result, s⟩ := t.start database w.transport
  cases result <;> rfl

/-- What the log holds of a session that is dropped: nothing, if it is finished. -/
def partingEvents (s : Session) : List LogEvent :=
  if s.finished then [] else [.abandoned s.token.txId s.database]

theorem eq_of_mem_partingEvents (s : Session) {event : LogEvent} (h : event ∈ s.partingEvents) :
    event = .abandoned s.token.txId s.database := by
  unfold partingEvents at h
  split at h
  · cases h
  · exact List.mem_singleton.1 h

theorem perform_drop (s : Session) :
    s.drop.perform w = (.ok (), ⟨w.transport, w.log ++ s.partingEvents⟩) := by
  unfold drop partingEvents
  split
  · rw [List.append_nil]
    rfl
  · rfl

/-- A session that is given to the transport to be settled is finished when it is dropped, whatever the
transport answers. -/
theorem perform_commit (s : Session) :
    (commit t s).perform w =
      ((t.commit s.database s.token w.transport).1,
        ⟨(t.commit s.database s.token w.transport).2,
          w.log ++ [.committing s.token.txId s.database]⟩) := rfl

theorem perform_rollback (s : Session) :
    (rollback t s).perform w =
      ((t.rollback s.database s.token w.transport).1,
        ⟨(t.rollback s.database s.token w.transport).2,
          w.log ++ [.rollingBack s.token.txId s.database]⟩) := rfl

end Session
end DocWire
