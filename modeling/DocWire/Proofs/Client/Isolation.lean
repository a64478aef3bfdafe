import DocWire.Proofs.Client.Sending
import DocWire.Proofs.Client.Trace
import Mathlib.Data.List.Nodup

/-!
# Transactions and their databases

A token goes only to the database whose transaction it names. Main statement: `isolated_trace`, in
every run a call under a token has the database of the beginning, earlier in the run, that the transport
answered with this token, and an operation in a session of another database makes no call.
-/
set_option autoImplicit false

namespace DocWire

/-! ## Sessions that are opened -/

/-- The session that was opened, if one was. -/
def Outcome.session? {α : Type} : Outcome α → Option Session
  | .session _ s => some s
  | _ => none

/-- The session that a turn opened, if it opened one. -/
def Moment.opened? {σ κ : Type} (m : Moment σ κ) : Option Session :=
  m.result.toOption.bind Outcome.session?

namespace Client
variable {σ κ α : Type} {client : Client σ} {s : Session}

theorem mem_sessions_of_session? {index : Nat} (h : client.session? index = some s) :
    some s ∈ client.sessions := by
  unfold session? at h
  cases hi : client.sessions[index]? with
  | none =>
    rw [hi] at h
    cases h
  | some session? =>
    rw [hi] at h
    cases h
    exact List.mem_of_getElem? hi

theorem sessions_openCursor (action : Action σ DocumentStream) :
    (client.openCursor action : Except Failure (Outcome α) × Client σ).2.sessions = client.sessions := by
  unfold openCursor
  obtain ⟨result, w⟩ := action.perform client.world
  cases result <;> rfl

theorem mem_sessions_finish {index : Nat} {action : Session → Action σ Unit}
    (h : some s ∈ (client.finish index action : Except Failure (Outcome α) × Client σ).2.sessions) :
    some s ∈ client.sessions := by
  unfold finish at h
  cases hs : client.session? index with
  | none =>
    rw [hs] at h
    exact h
  | some s' =>
    rw [hs] at h
    have hm : some s ∈ client.sessions.set index none := h
    rcases List.mem_or_eq_of_mem_set hm with hm | hm
    · exact hm
    · cases hm

/-- A beginning that the transport answers opens a session, and one that it refuses opens none. -/
theorem sessions_start (t : Transport σ) (database : String) :
    (client.start t database : Except Failure (Outcome α) × Client σ).2.sessions =
      client.sessions ++ ((t.start database client.world.transport).1.toOption.map fun token =>
        some ⟨database, token, false⟩).toList := by
  unfold start
  rw [Session.perform_start]
  obtain ⟨result, s⟩ := t.start database client.world.transport
  cases result with
  | error e => exact (List.append_nil _).symm
  | ok token => rfl

theorem mem_sessions_start {t : Transport σ} {database : String}
    (h : some s ∈ (client.start t database : Except Failure (Outcome α) × Client σ).2.sessions) :
    some s ∈ client.sessions ∨
      (client.start t database : Except Failure (Outcome α) × Client σ).1 =
        .ok (.session client.sessions.length s) := by
  rw [sessions_start] at h
  rw [result_of_start]
  refine (List.mem_append.1 h).imp_right fun h => ?_
  cases ht : (t.start database client.world.transport).1 with
  | error e =>
    rw [ht] at h
    cases h
  | ok token =>
    rw [ht] at h
    cases List.mem_singleton.1 h
    rfl

/-- A session that is open after an operation was open before, or the operation opened it. -/
theorem mem_sessions_operate {t : Transport σ} {type : DocumentType α} {operation : Operation α}
    (h : some s ∈ (client.operate t type operation).2.sessions) :
    some s ∈ client.sessions ∨
      (client.operate t type operation).1.toOption.bind Outcome.session? = some s := by
  cases operation with
  | insertOne _ _ | insertMany _ _ | findMany _ _ _ | findOne _ _ _ | findByKey _ _
  | updateMany _ _ _ | deleteMany _ _ | drain _ => exact .inl h
  | openCursor place filter? projection? =>
    rw [operate, sessions_openCursor] at h
    exact .inl h
  | advance cursor =>
    left
    simp only [operate] at h
    split at h
    · exact h
    · rename_i stream hs
      cases stream <;> exact h
  | start database? =>
    refine (mem_sessions_start h).imp_right fun hr => ?_
    rw [operate, hr]
    rfl
  | commit index | rollback index | drop index => exact .inl (mem_sessions_finish h)

theorem session?_map {β : Type} (result : Except Failure β) {outcome : β → Outcome α}
    (h : ∀ b, (outcome b).session? = none) :
    (result.map outcome).toOption.bind Outcome.session? = none := by
  cases result with
  | error e => rfl
  | ok b => exact h b

theorem session?_openCursor (action : Action σ DocumentStream) :
    (client.openCursor action : Except Failure (Outcome α) × Client σ).1.toOption.bind
      Outcome.session? = none := by
  rw [result_of_openCursor]
  exact session?_map _ fun _ => rfl

theorem session?_finish (index : Nat) (action : Session → Action σ Unit) :
    (client.finish index action : Except Failure (Outcome α) × Client σ).1.toOption.bind
      Outcome.session? = none := by
  unfold finish
  cases client.session? index with
  | none => rfl
  | some s => exact session?_map _ fun _ => rfl

theorem session?_start {t : Transport σ} {database : String}
    (h : (client.start t database : Except Failure (Outcome α) × Client σ).1.toOption.bind
      Outcome.session? = some s) :
    s.database = database ∧ s.finished = false ∧
      (t.start database client.world.transport).1 = .ok s.token := by
  rw [result_of_start] at h
  cases ht : (t.start database client.world.transport).1 with
  | error e =>
    rw [ht] at h
    cases h
  | ok token =>
    rw [ht] at h
    cases h
    exact ⟨rfl, rfl, rfl⟩

/-- Only the beginning of a transaction opens a session, and it is what the transport answered. -/
theorem start_of_session? {t : Transport σ} {type : DocumentType α} {operation : Operation α}
    (h : (client.operate t type operation).1.toOption.bind Outcome.session? = some s) :
    ∃ database?, operation = .start database? ∧ s.database = client.databaseName database? ∧
      s.finished = false ∧ (t.start s.database client.world.transport).1 = .ok s.token := by
  cases operation with
  | start database? =>
    obtain ⟨hd, hf, ht⟩ := session?_start h
    exact ⟨database?, rfl, hd, hf, hd ▸ ht⟩
  | insertOne _ _ | insertMany _ _ | findMany _ _ _ | findOne _ _ _ | findByKey _ _
  | updateMany _ _ _ | deleteMany _ _ | drain _ =>
    cases (session?_map _ fun _ => rfl).symm.trans h
  | openCursor _ _ _ => cases (session?_openCursor _).symm.trans h
  | commit _ | rollback _ | drop _ => cases (session?_finish _ _).symm.trans h
  | advance cursor =>
    simp only [operate] at h
    split at h
    · cases h
    · rename_i stream hs
      cases stream with
      | nil => cases h
      | cons item rest => cases (session?_map _ fun _ => rfl).symm.trans h

/-! ## Calls under a token -/

theorem session_of_lends {place : Place} {token : SessionToken}
    (h : client.Lends place (some token)) :
    ∃ s, some s ∈ client.sessions ∧ s.database = client.databaseName place.database? ∧
      s.token = token := by
  unfold Lends at h
  cases hs : client.placeSession? place with
  | none =>
    rw [hs] at h
    cases h
  | some s =>
    rw [hs] at h
    obtain ⟨hd, ht⟩ := h
    cases ht
    obtain ⟨index, -, hi⟩ := Option.bind_eq_some_iff.1 hs
    exact ⟨s, mem_sessions_of_session? hi, hd, rfl⟩

/-- An operation that sends a token has it from an open session of the same database. -/
theorem session_of_sends {type : DocumentType α} {operation : Operation α} {call : Call}
    {token : SessionToken} (h : client.Sends type operation call) (ht : token ∈ call.token?) :
    ∃ s, some s ∈ client.sessions ∧ s.database = call.database ∧ s.token = token := by
  cases h with
  | insertOne _ hl | insertMany _ hl | findMany _ _ hl | findOne _ _ hl | findByKey _ _ hl
  | updateMany _ _ hl | deleteMany _ hl | openCursor _ _ hl =>
    cases ht
    exact session_of_lends hl
  | start => cases ht
  | commit hs | rollback hs =>
    cases ht
    exact ⟨_, mem_sessions_of_session? hs, rfl, rfl⟩

/-! ## Runs -/

section Runs
variable {t : Transport σ} {calls : σ → List Call} {apply : κ → σ → σ}

theorem mem_sessions_take {turn : Turn κ} (h : some s ∈ (client.take t apply turn).after.sessions) :
    some s ∈ client.sessions ∨ (client.take t apply turn).opened? = some s := by
  obtain ⟨Doc, type, step⟩ := turn
  cases step with
  | operation operation => exact mem_sessions_operate h
  | control instruction => exact .inl h

/-- A session that is open after turns was open before them, or one of them opened it. -/
theorem mem_sessions_takeAll {turns : List (Turn κ)}
    (h : some s ∈ (takeAll t apply turns client).sessions) :
    some s ∈ client.sessions ∨ ∃ b ∈ trace t apply turns client, b.opened? = some s := by
  induction turns generalizing client with
  | nil => exact .inl h
  | cons turn rest ih =>
    have hr : some s ∈ (takeAll t apply rest (client.take t apply turn).after).sessions := h
    rcases ih hr with hb | ⟨b, hb, ho⟩
    · exact (mem_sessions_take hb).imp_right fun ho => ⟨_, List.mem_cons_self, ho⟩
    · exact .inr ⟨b, List.mem_cons_of_mem _ hb, ho⟩

theorem start_of_opened? (h : t.Records calls)
    (ha : ∀ instruction s, calls (apply instruction s) = calls s) {turns : List (Turn κ)}
    {m : Moment σ κ} (hm : m ∈ trace t apply turns client) (ho : m.opened? = some s) :
    m.sent calls = [.start s.database] ∧ s.finished = false ∧
      (t.start s.database m.before.world.transport).1 = .ok s.token := by
  obtain ⟨before, ⟨Doc, type, step⟩, rfl⟩ := exists_take_of_mem hm
  rw [sent_take h ha]
  cases step with
  | control instruction => cases ho
  | operation operation =>
    have hs : ∃ database?, operation = .start database? ∧ s.database = before.databaseName database? ∧
        s.finished = false ∧ (t.start s.database before.world.transport).1 = .ok s.token :=
      start_of_session? ho
    obtain ⟨database?, rfl, hd, hf, ht⟩ := hs
    refine ⟨?_, hf, ht⟩
    rw [hd]
    rfl

/-- The calls of a turn under a token, and the session that the token is of. -/
theorem session_of_sent (h : t.Records calls)
    (ha : ∀ instruction s, calls (apply instruction s) = calls s) {turn : Turn κ} {call : Call}
    {token : SessionToken} (hc : call ∈ (client.take t apply turn).sent calls)
    (ht : token ∈ call.token?) :
    ∃ s, some s ∈ client.sessions ∧ s.database = call.database ∧ s.token = token := by
  obtain ⟨Doc, type, step⟩ := turn
  rw [sent_take h ha, Option.mem_toList] at hc
  cases step with
  | control instruction => cases hc
  | operation operation => exact session_of_sends (call?_eq_some_iff_sends.1 hc) ht

/-- A turn in a session of another database. -/
theorem foreign_take (h : t.Records calls)
    (ha : ∀ instruction s, calls (apply instruction s) = calls s) {turn : Turn κ}
    {operation : Operation turn.Doc} {place : Place} (hstep : turn.step = .operation operation)
    (hp : operation.place? = some place) (hs : client.placeSession? place = some s)
    (hd : s.database ≠ client.databaseName place.database?) :
    (client.take t apply turn).sent calls = [] ∧
      ((∃ call, client.call? turn.type operation.alone = some call ∧
          (client.take t apply turn).result = .error (.foreignSession s.token.txId s.database
            (client.databaseName place.database?))) ∨
        (client.call? turn.type operation.alone = none ∧
          ∃ e, (client.operate t turn.type operation.alone).1 = .error e ∧
            (client.take t apply turn).result = .error e)) := by
  have hr : (client.take t apply turn).result = (client.operate t turn.type operation).1 := by
    have ht : (client.take t apply turn).result = (client.step t apply turn.type turn.step).1 := rfl
    rw [ht, hstep]
    rfl
  rw [hr, sent_take h ha, hstep, stepCall?, call?_foreign hp hs hd]
  exact ⟨rfl, operate_foreign t hp hs hd⟩

end Runs
end Client

/-- Transactions keep to their databases in turns that were taken one after another. -/
structure Isolated {σ κ : Type} (t : Transport σ) (calls : σ → List Call)
    (passed : List (Moment σ κ)) : Prop where
  /-- A call under a token has the database of an earlier beginning, and the transport answered that
  one with the token. -/
  issued : ∀ front m back, passed = front ++ m :: back →
    ∀ call ∈ m.sent calls, ∀ token ∈ call.token?,
      ∃ b ∈ front, b.opened? = some ⟨call.database, token, false⟩ ∧ b.sent calls = [.start call.database] ∧
        (t.start call.database b.before.world.transport).1 = .ok token
  /-- No beginning in another database was answered with that transaction. -/
  only : ∀ m ∈ passed, ∀ call ∈ m.sent calls, ∀ token ∈ call.token?, ∀ b ∈ passed, ∀ s ∈ b.opened?,
    s.token.txId = token.txId → s = ⟨call.database, token, false⟩
  /-- An operation in a session of another database makes no call. It fails by the session where it
  would make a call without one, and else as it fails without one. -/
  foreign : ∀ m ∈ passed, ∀ operation place s, m.turn.step = .operation operation →
    operation.place? = some place → m.before.placeSession? place = some s →
    s.database ≠ m.before.databaseName place.database? →
    m.sent calls = [] ∧
      ((∃ call, m.before.call? m.turn.type operation.alone = some call ∧
          m.result = .error (.foreignSession s.token.txId s.database
            (m.before.databaseName place.database?))) ∨
        (m.before.call? m.turn.type operation.alone = none ∧
          ∃ e, (m.before.operate t m.turn.type operation.alone).1 = .error e ∧
            m.result = .error e))

namespace Client
variable {σ κ : Type} {t : Transport σ} {calls : σ → List Call} {apply : κ → σ → σ}
  {client : Client σ}

theorem issued_of_sent (h : t.Records calls)
    (ha : ∀ instruction s, calls (apply instruction s) = calls s) (hs : client.sessions = [])
    {turns : List (Turn κ)} {front back : List (Moment σ κ)} {m : Moment σ κ}
    (hm : trace t apply turns client = front ++ m :: back) {call : Call} (hc : call ∈ m.sent calls)
    {token : SessionToken} (ht : token ∈ call.token?) :
    ∃ b ∈ front, b.opened? = some ⟨call.database, token, false⟩ ∧ b.sent calls = [.start call.database] ∧
      (t.start call.database b.before.world.transport).1 = .ok token := by
  obtain ⟨earlier, turn, later, -, rfl, rfl⟩ := trace_split hm
  obtain ⟨⟨_, _, finished⟩, hmem, rfl, rfl⟩ := session_of_sent h ha hc ht
  rcases mem_sessions_takeAll hmem with hn | ⟨b, hb, ho⟩
  · rw [hs] at hn
    cases hn
  · obtain ⟨hsent, hf, hstart⟩ := start_of_opened? h ha hb ho
    obtain rfl : finished = false := hf
    exact ⟨b, hb, ho, hsent, hstart⟩

/-- Over a transport that records its calls, and that answers beginnings with different transactions,
transactions keep to their databases in every run of a client that has no session open at first. -/
theorem isolated_trace (h : t.Records calls)
    (ha : ∀ instruction s, calls (apply instruction s) = calls s) (hs : client.sessions = [])
    (turns : List (Turn κ))
    (hd : (((trace t apply turns client).filterMap Moment.opened?).map fun s => s.token.txId).Nodup) :
    Isolated t calls (trace t apply turns client) ∧
      calls (takeAll t apply turns client).world.transport =
        calls client.world.transport ++ (trace t apply turns client).flatMap (Moment.sent calls) := by
  refine ⟨⟨fun front m back hm call hc token ht => issued_of_sent h ha hs hm hc ht, ?_, ?_⟩,
    calls_takeAll h ha turns client⟩
  · intro m hm call hc token ht b hb s ho hid
    obtain ⟨front, back, hsplit⟩ := List.append_of_mem hm
    obtain ⟨b', hb', ho', -⟩ := issued_of_sent h ha hs hsplit hc ht
    have hmem : b' ∈ trace t apply turns client := hsplit ▸ List.mem_append_left _ hb'
    exact List.inj_on_of_nodup_map hd (List.mem_filterMap.2 ⟨b, hb, ho⟩)
      (List.mem_filterMap.2 ⟨b', hmem, ho'⟩) hid
  · intro m hm operation place s hstep hp hps hne
    obtain ⟨before, turn, rfl⟩ := exists_take_of_mem hm
    exact foreign_take h ha hstep hp hps hne

/-- Two transactions side by side, a read in the wrong one, a failure, and both ends. -/
def twoTransactions : List (Turn Recording.Control) :=
  let things := DocumentType.anyJson "things" [] ["id"]
  let accounts := DocumentType.anyJson "accounts" ["id", "balance"] ["id"]
  [⟨Json, things, .operation (.start (some "a"))⟩,
    ⟨Json, things, .operation (.start (some "b"))⟩,
    ⟨Json, accounts, .operation (.findMany ⟨some "b", some 1⟩ none none)⟩,
    ⟨Json, things, .operation (.findMany ⟨some "b", some 0⟩ none none)⟩,
    ⟨Json, things, .control (.armFailure "down")⟩,
    ⟨Json, accounts, .operation (.insertOne ⟨some "a", some 0⟩ (.object []))⟩,
    ⟨Json, things, .operation (.commit 1)⟩,
    ⟨Json, things, .operation (.rollback 0)⟩]

theorem isolated_trace_two_transactions :
    let client : Client Recording := ⟨.defaults, ⟨.counting "id", []⟩, [], []⟩
    let passed := trace Recording.transport Recording.Control.apply twoTransactions client
    client.sessions = [] ∧
      ((passed.filterMap Moment.opened?).map fun s => s.token.txId).Nodup ∧
      (passed.flatMap (Moment.sent Recording.calls)).map (fun call => call.token?.map SessionToken.txId) =
        [none, none, some "tx-2", some "tx-1", some "tx-2", some "tx-1"] ∧
      Isolated Recording.transport Recording.calls passed ∧
      (takeAll Recording.transport Recording.Control.apply twoTransactions
          client).world.transport.calls =
        client.world.transport.calls ++ passed.flatMap (Moment.sent Recording.calls) := by
  intro client passed
  have hs : client.sessions = [] := rfl
  have hd : ((passed.filterMap Moment.opened?).map fun s => s.token.txId).Nodup := by
    decide +kernel
  exact ⟨hs, hd, by decide +kernel,
    isolated_trace Recording.records Recording.calls_apply hs twoTransactions hd⟩

end Client
end DocWire
