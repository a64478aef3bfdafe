import DocWire.Proofs.Client.Log
import DocWire.Proofs.Client.Trace

/-!
# The log of requests

Every request that goes out is logged. A read, an update or a deletion in a session of another database
is logged as well, although the session is refused then and nothing goes out; an insertion is logged
after that check. Main statements: `wireLog_take`, what a turn logs; `wireLog_eq_calls_iff`, when the
log of a run is that of its calls; and `exists_unsent_record`, a run for which it is not.
-/
set_option autoImplicit false

namespace DocWire

/-! ## Records of requests -/

/-- Whether a record is let through and filed with those of requests. -/
def LogEvent.onWire (threshold : LogThreshold) (event : LogEvent) : Bool :=
  threshold.admits event.level && event.target = LogRecord.wireTarget

theorem Call.onWire_of_event? {threshold : LogThreshold}
    (hl : threshold = some .debug ∨ threshold = some .trace) {call : Call} {event : LogEvent}
    (h : call.event? = some event) : event.onWire threshold = true := by
  cases call with
  | insert _ | read _ | update _ | delete _ =>
    cases h
    rcases hl with rfl | rfl <;> rfl
  | start _ | commit _ _ | rollback _ _ => cases h

/-! ## What operations log -/

namespace Client
variable {σ α κ : Type}

/-- The records that are let through and filed with those of requests, oldest first. -/
def wireLog (threshold : LogThreshold) (client : Client σ) : List LogEvent :=
  client.world.log.filter (LogEvent.onWire threshold)

/-- The call that an operation announces and does not make. -/
def unsent? (client : Client σ) (type : DocumentType α) (operation : Operation α) : Option Call :=
  match client.call? type operation with
  | none => client.announced? type operation
  | some _ => none

section
variable {threshold : LogThreshold}

theorem filter_requests (hl : threshold = some .debug ∨ threshold = some .trace)
    (call? : Option Call) :
    (call?.bind Call.event?).toList.filter (LogEvent.onWire threshold) =
      (call?.bind Call.event?).toList := by
  refine List.filter_eq_self.2 fun event he => ?_
  obtain ⟨call, -, hc⟩ := Option.bind_eq_some_iff.1 (Option.mem_toList.1 he)
  exact Call.onWire_of_event? hl hc

theorem filter_others (events : List LogEvent)
    (ht : ∀ event ∈ events, event.target ≠ LogRecord.wireTarget) :
    events.filter (LogEvent.onWire threshold) = [] := by
  refine List.filter_eq_nil_iff.2 fun event he => ?_
  simp [LogEvent.onWire, ht event he]

theorem event?_of_session (session? : Option Session) {call : Session → Call}
    (h : ∀ s, (call s).event? = none) : ((session?.map call).bind Call.event?).toList = [] := by
  cases session? with
  | none => rfl
  | some s => simp [h]

theorem database_ne_wire : "nexusrpc::database" ≠ LogRecord.wireTarget := by decide

theorem session_ne_wire : "nexusrpc::session" ≠ LogRecord.wireTarget := by decide

theorem filter_noted (hl : threshold = some .debug ∨ threshold = some .trace) (t : Transport σ)
    (client : Client σ) (type : DocumentType α) (operation : Operation α) :
    (client.noted t type operation).filter (LogEvent.onWire threshold) =
      ((client.announced? type operation).bind Call.event?).toList := by
  cases operation with
  | start database? =>
    refine filter_others _ fun event he => ?_
    obtain ⟨token, -, rfl⟩ := Option.map_eq_some_iff.1 (Option.mem_toList.1 he)
    exact database_ne_wire
  | commit index | rollback index =>
    refine (filter_others _ fun event he => ?_).trans
      (event?_of_session (client.session? index) fun _ => rfl).symm
    obtain ⟨s, -, hs⟩ := List.mem_flatMap.1 he
    obtain rfl := List.mem_singleton.1 hs
    exact session_ne_wire
  | drop index =>
    refine filter_others _ fun event he => ?_
    obtain ⟨s, -, hs⟩ := List.mem_flatMap.1 he
    obtain rfl := s.eq_of_mem_partingEvents hs
    exact session_ne_wire
  | advance cursor | drain cursor => rfl
  | _ => exact filter_requests hl (client.announced? type _)

theorem wireLog_operate (hl : threshold = some .debug ∨ threshold = some .trace) (t : Transport σ)
    (client : Client σ) (type : DocumentType α) (operation : Operation α) :
    (client.operate t type operation).2.wireLog threshold =
      client.wireLog threshold ++ ((client.announced? type operation).bind Call.event?).toList := by
  rw [wireLog, log_operate, List.filter_append, filter_noted hl]
  rfl

end

/-! ## Calls that are announced and not made -/

theorem event?_withToken (token? : Option SessionToken) (call : Call) :
    (call.withToken token?).event? = call.event? := by
  cases call <;> rfl

section
variable {client : Client σ} {type : DocumentType α} {operation : Operation α} {call : Call}

/-- The call that an operation makes is the one that it announces, but for the token. -/
theorem event?_announced (h : client.call? type operation = some call) :
    (client.announced? type operation).bind Call.event? = call.event? := by
  unfold announced?
  split
  · rw [h]
    rfl
  · cases hp : operation.place? with
    | none =>
      rw [Operation.alone_of_place?_eq_none hp, h]
      rfl
    | some place =>
      obtain ⟨bare, token?, hb, -, rfl⟩ := (call?_eq_some_iff_of_place hp).1 h
      rw [hb]
      exact (event?_withToken token? bare).symm

/-- What is announced is what is made and what is not. -/
theorem event?_announced_eq (client : Client σ) (type : DocumentType α) (operation : Operation α) :
    ((client.announced? type operation).bind Call.event?).toList =
      (client.call? type operation).toList.filterMap Call.event? ++
        ((client.unsent? type operation).bind Call.event?).toList := by
  unfold unsent?
  cases hc : client.call? type operation with
  | none => rfl
  | some call =>
    rw [event?_announced hc]
    cases he : call.event? <;> simp [he]

/-- A call is announced and not made just when it is not an insertion, and the operation would make it
without its session, which is one of another database. -/
theorem unsent?_eq_some_iff :
    client.unsent? type operation = some call ↔
      operation.inserts = false ∧ client.call? type operation.alone = some call ∧
        ∃ place s, operation.place? = some place ∧ client.placeSession? place = some s ∧
          s.database ≠ client.databaseName place.database? := by
  unfold unsent? announced?
  constructor
  · intro h
    cases hc : client.call? type operation with
    | some _ =>
      rw [hc] at h
      cases h
    | none =>
      rw [hc] at h
      simp only at h
      cases hi : operation.inserts with
      | true =>
        rw [hi, if_pos rfl] at h
        cases h
      | false =>
        rw [hi, if_neg Bool.false_ne_true] at h
        refine ⟨rfl, h, ?_⟩
        cases hp : operation.place? with
        | none =>
          rw [Operation.alone_of_place?_eq_none hp, hc] at h
          cases h
        | some place =>
          obtain ⟨s, hs, hd⟩ := exists_foreign hp h hc
          exact ⟨place, s, rfl, hs, hd⟩
  · rintro ⟨hi, hc, place, s, hp, hs, hd⟩
    rw [call?_foreign hp hs hd, hi]
    exact hc

end

theorem exists_event_of_place {client : Client σ} {type : DocumentType α} {operation : Operation α}
    {place : Place} {call : Call} (hp : operation.place? = some place)
    (h : client.call? type operation = some call) : ∃ event, call.event? = some event := by
  cases operation with
  | advance _ | drain _ | start _ | commit _ | rollback _ | drop _ => cases hp
  | _ =>
    obtain ⟨request, -, rfl⟩ := sent_iff.1 h
    exact ⟨_, rfl⟩

end Client

/-! ## What runs log -/

section Lists
universe u v
variable {α : Type u} {β : Type v} {f g : α → List β} {l : List α}

theorem length_flatMap_le (h : ∀ a ∈ l, g a <+: f a) : (l.flatMap g).length ≤ (l.flatMap f).length := by
  induction l with
  | nil => exact Nat.le_refl _
  | cons a l ih =>
    have ha := (h a List.mem_cons_self).length_le
    have hl := ih fun b hb => h b (List.mem_cons_of_mem _ hb)
    rw [List.flatMap_cons, List.flatMap_cons, List.length_append, List.length_append]
    omega

/-- Nothing that one part has too much is made up for by another part. -/
theorem flatMap_eq_flatMap_iff (h : ∀ a ∈ l, g a <+: f a) :
    l.flatMap f = l.flatMap g ↔ ∀ a ∈ l, f a = g a := by
  induction l with
  | nil => simp
  | cons a l ih =>
    have hl : ∀ b ∈ l, g b <+: f b := fun b hb => h b (List.mem_cons_of_mem _ hb)
    obtain ⟨rest, hr⟩ := h a List.mem_cons_self
    rw [List.forall_mem_cons, ← ih hl, List.flatMap_cons, List.flatMap_cons]
    constructor
    · intro he
      rw [← hr, List.append_assoc, List.append_cancel_left_eq] at he
      have hn := congrArg List.length he
      have hle := length_flatMap_le hl
      rw [List.length_append] at hn
      have hz : rest = [] := List.eq_nil_of_length_eq_zero (by omega)
      subst hz
      exact ⟨hr.symm.trans (List.append_nil _), he⟩
    · rintro ⟨hf, ht⟩
      rw [hf, ht]

end Lists

/-- In the turn a read, an update or a deletion was to run in a session of another database; without
the session it would have made the call. -/
def Moment.Misdirects {σ κ : Type} (m : Moment σ κ) (call : Call) : Prop :=
  ∃ operation, m.turn.step = .operation operation ∧ operation.inserts = false ∧
    m.before.call? m.turn.type operation.alone = some call ∧
      ∃ place s, operation.place? = some place ∧ m.before.placeSession? place = some s ∧
        s.database ≠ m.before.databaseName place.database?

def Moment.logged {σ κ : Type} (threshold : LogThreshold) (m : Moment σ κ) : List LogEvent :=
  (m.after.wireLog threshold).drop (m.before.wireLog threshold).length

namespace Client
variable {σ κ : Type} {t : Transport σ} {calls : σ → List Call} {apply : κ → σ → σ}
  {threshold : LogThreshold}

/-- A turn logs its call, unless it is misdirected: then it logs a call that it does not make. -/
theorem wireLog_take (hl : threshold = some .debug ∨ threshold = some .trace) (h : t.Records calls)
    (ha : ∀ instruction s, calls (apply instruction s) = calls s) (client : Client σ)
    (turn : Turn κ) :
    let m := client.take t apply turn
    (∀ call, ¬ m.Misdirects call) ∧
        m.after.wireLog threshold =
          client.wireLog threshold ++ (m.sent calls).filterMap Call.event? ∨
      ∃ call event, m.Misdirects call ∧ call.event? = some event ∧ m.sent calls = [] ∧
        m.after.wireLog threshold = client.wireLog threshold ++ [event] := by
  intro m
  have hs : m.sent calls = _ := sent_take h ha client turn
  obtain ⟨Doc, type, step⟩ := turn
  cases step with
  | control instruction =>
    left
    rw [hs]
    refine ⟨?_, (List.append_nil _).symm⟩
    rintro call ⟨operation, ho, -⟩
    cases ho
  | operation operation =>
    have hw : m.after.wireLog threshold = _ := wireLog_operate hl t client type operation
    rw [event?_announced_eq] at hw
    rw [hs, hw]
    cases hu : client.unsent? type operation with
    | none =>
      left
      refine ⟨?_, by rw [Option.bind_none, Option.toList_none, List.append_nil]; rfl⟩
      rintro call ⟨operation', ho, hi, hc, hf⟩
      cases ho
      have hn : client.unsent? type operation = some call := unsent?_eq_some_iff.2 ⟨hi, hc, hf⟩
      rw [hu] at hn
      cases hn
    | some call =>
      right
      obtain ⟨hi, hc, place, s, hp, hps, hd⟩ := unsent?_eq_some_iff.1 hu
      obtain ⟨event, he⟩ := exists_event_of_place (Operation.place?_alone hp) hc
      have hn : client.call? type operation = none := call?_foreign hp hps hd
      refine ⟨call, event, ⟨operation, rfl, hi, hc, place, s, hp, hps, hd⟩, he, ?_, ?_⟩
      · rw [stepCall?, hn]
        rfl
      · rw [hn, Option.bind_some, he]
        rfl

theorem wireLog_close (client : Client σ) : client.close.wireLog threshold = client.wireLog threshold := by
  unfold wireLog
  rw [world_close, List.filter_append]
  refine (congrArg _ (filter_others _ fun event he => ?_)).trans (List.append_nil _)
  obtain ⟨s, -, hs⟩ := List.mem_flatMap.1 he
  obtain rfl := s.eq_of_mem_partingEvents hs
  exact session_ne_wire

theorem wireLog_eq_append_logged (hl : threshold = some .debug ∨ threshold = some .trace)
    (h : t.Records calls) (ha : ∀ instruction s, calls (apply instruction s) = calls s)
    (client : Client σ) (turn : Turn κ) :
    (client.take t apply turn).after.wireLog threshold =
      client.wireLog threshold ++ (client.take t apply turn).logged threshold := by
  have hb : (client.take t apply turn).before = client := rfl
  unfold Moment.logged
  rcases wireLog_take hl h ha client turn with ⟨-, hw⟩ | ⟨call, event, -, -, -, hw⟩
  · rw [hw, hb, List.drop_left]
  · rw [hw, hb, List.drop_left]

theorem logged_of_mem (hl : threshold = some .debug ∨ threshold = some .trace) (h : t.Records calls)
    (ha : ∀ instruction s, calls (apply instruction s) = calls s) {turns : List (Turn κ)}
    {client : Client σ} {m : Moment σ κ} (hm : m ∈ trace t apply turns client) :
    (∀ call, ¬ m.Misdirects call) ∧ m.logged threshold = (m.sent calls).filterMap Call.event? ∨
      ∃ call event, m.Misdirects call ∧ call.event? = some event ∧ m.sent calls = [] ∧
        m.logged threshold = [event] := by
  obtain ⟨before, turn, rfl⟩ := exists_take_of_mem hm
  have hb : (before.take t apply turn).before = before := rfl
  unfold Moment.logged
  rcases wireLog_take hl h ha before turn with ⟨hn, hw⟩ | ⟨call, event, hd, he, hs, hw⟩
  · exact .inl ⟨hn, by rw [hw, hb, List.drop_left]⟩
  · exact .inr ⟨call, event, hd, he, hs, by rw [hw, hb, List.drop_left]⟩

/-- The log of requests has a record for each call that a run makes and no other, in the order of the
calls, just when no turn of the run is misdirected. A turn that is has one record and no call. -/
theorem wireLog_eq_calls_iff (hl : threshold = some .debug ∨ threshold = some .trace)
    (h : t.Records calls) (ha : ∀ instruction s, calls (apply instruction s) = calls s)
    (turns : List (Turn κ)) (client : Client σ) :
    let ended := (takeAll t apply turns client).close
    ∃ made, calls ended.world.transport = calls client.world.transport ++ made ∧
      (ended.wireLog threshold = client.wireLog threshold ++ made.filterMap Call.event? ↔
        ∀ m ∈ trace t apply turns client, ∀ call, ¬ m.Misdirects call) ∧
      ∀ m ∈ trace t apply turns client,
        (∀ call, ¬ m.Misdirects call) ∧ m.logged threshold = (m.sent calls).filterMap Call.event? ∨
          ∃ call event, m.Misdirects call ∧ call.event? = some event ∧ m.sent calls = [] ∧
            m.logged threshold = [event] := by
  have hv := view_takeAll (wireLog threshold) (Moment.logged threshold)
    (wireLog_eq_append_logged hl h ha) turns client
  have hm : ∀ m ∈ trace t apply turns client, _ := fun m hm => logged_of_mem hl h ha hm
  refine ⟨_, (congrArg calls (transport_close _)).trans (calls_takeAll h ha turns client), ?_, hm⟩
  rw [wireLog_close, hv, List.append_cancel_left_eq, List.filterMap_flatMap, flatMap_eq_flatMap_iff]
  · refine forall₂_congr fun m hmem => ?_
    rcases hm m hmem with ⟨hn, he⟩ | ⟨call, event, hd, -, hs, he⟩
    · exact ⟨fun _ => hn, fun _ => he⟩
    · rw [he, hs]
      refine ⟨fun hc => ?_, fun hn => absurd hd (hn call)⟩
      cases hc
  · intro m hmem
    rcases hm m hmem with ⟨-, he⟩ | ⟨call, event, -, -, hs, -⟩
    · exact he ▸ List.prefix_rfl
    · exact hs ▸ List.nil_prefix

/-- A session of one database and a read of another, then an insertion where it belongs. -/
def misdirectedTurns : List (Turn Recording.Control) :=
  let type := DocumentType.anyJson "things" [] ["id"]
  [⟨Json, type, .operation (.start (some "a"))⟩,
    ⟨Json, type, .operation (.findMany ⟨some "b", some 0⟩ none none)⟩,
    ⟨Json, type, .operation (.insertOne ⟨some "a", some 0⟩ (.object []))⟩]

theorem wireLog_eq_calls_iff_two_databases :
    let client : Client Recording := ⟨.defaults, ⟨.counting "id", []⟩, [], []⟩
    let passed := trace Recording.transport Recording.Control.apply misdirectedTurns client
    let ended := (takeAll Recording.transport Recording.Control.apply misdirectedTurns client).close
    some LogLevel.debug = some .debug ∧ ended.world.transport.calls.length = 2 ∧
      (ended.wireLog (some .debug)).length = 2 ∧
      ∃ made, ended.world.transport.calls = client.world.transport.calls ++ made ∧
        (ended.wireLog (some .debug) = client.wireLog (some .debug) ++ made.filterMap Call.event? ↔
          ∀ m ∈ passed, ∀ call, ¬ m.Misdirects call) ∧
        ∀ m ∈ passed,
          (∀ call, ¬ m.Misdirects call) ∧
              m.logged (some .debug) = (m.sent Recording.calls).filterMap Call.event? ∨
            ∃ call event, m.Misdirects call ∧ call.event? = some event ∧ m.sent Recording.calls = [] ∧
              m.logged (some .debug) = [event] :=
  ⟨rfl, by decide +kernel, by decide +kernel,
    wireLog_eq_calls_iff (.inl rfl) Recording.records Recording.calls_apply misdirectedTurns _⟩

/-- The log of requests can have a record without a call. -/
theorem exists_unsent_record :
    ¬ ∀ (turns : List (Turn Recording.Control)) (client : Client Recording),
      let ended := (takeAll Recording.transport Recording.Control.apply turns client).close
      ∃ made, ended.world.transport.calls = client.world.transport.calls ++ made ∧
        ended.wireLog (some .debug) = client.wireLog (some .debug) ++ made.filterMap Call.event? := by
  intro h
  obtain ⟨made, hm, hw⟩ := h misdirectedTurns ⟨.defaults, ⟨.counting "id", []⟩, [], []⟩
  have hc : (made.filterMap Call.event?).length = 1 := by
    rw [← hm.trans (List.nil_append made)]
    decide +kernel
  have hl := congrArg List.length (hw.trans (List.nil_append _))
  rw [hc] at hl
  revert hl
  decide +kernel

end Client
end DocWire
