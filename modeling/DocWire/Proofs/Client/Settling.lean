import DocWire.Proofs.Client.Isolation
import DocWire.Proofs.Client.Log
import DocWire.Proofs.Client.Recorded
import DocWire.Proofs.Number.Digits
import Mathlib.Data.List.ReduceOption

/-!
# Sessions come to one end

A session that was opened is committed, rolled back or dropped, and one that is still open when the
client is closed is dropped then. Main statements: `open_trace`, the sessions that were opened are those
that were settled and those left open; `transactions_recorded`, sessions have transactions of their own
where identifiers differ; and `settledOnce_recorded`, the calls and warnings of every session.
-/
set_option autoImplicit false

namespace DocWire

/-! ## Endings -/

/-- How a session comes to its end. -/
inductive Ending where
  | committed
  | rolledBack
  | dropped
deriving DecidableEq, Repr

/-- A session that came to its end. -/
structure Settlement where
  ending : Ending
  session : Session
deriving DecidableEq, Repr

namespace Settlement

/-- The calls that an ending takes. -/
def calls : Settlement → List Call
  | ⟨.committed, s⟩ => [.commit s.database s.token]
  | ⟨.rolledBack, s⟩ => [.rollback s.database s.token]
  | ⟨.dropped, _⟩ => []

/-- The warnings that an ending leaves: one for a session that is dropped unfinished, if warnings are let
through. -/
def warnings (threshold : LogThreshold) : Settlement → List LogEvent
  | ⟨.dropped, s⟩ =>
    if threshold.admits .warn && !s.finished then [.abandoned s.token.txId s.database] else []
  | _ => []

end Settlement

/-- The transaction that a call commits or rolls back. -/
def Call.settled? : Call → Option String
  | .commit _ token => some token.txId
  | .rollback _ token => some token.txId
  | _ => none

theorem Call.token?_of_settled {call : Call} (h : call.settled?.isSome = true) :
    ∃ token, call.token? = some token := by
  cases call with
  | commit _ token | rollback _ token => exact ⟨token, rfl⟩
  | _ => cases h

/-- The transaction that is reported as dropped. -/
def LogEvent.abandoned? : LogEvent → Option String
  | .abandoned txId _ => some txId
  | _ => none

/-- Whether a record is let through and is a warning. -/
def LogEvent.warns (threshold : LogThreshold) (event : LogEvent) : Bool :=
  threshold.admits event.level && event.level = .warn

theorem LogEvent.not_warns {threshold : LogThreshold} {event : LogEvent} (h : event.level ≠ .warn) :
    event.warns threshold = false := by
  simp [warns, h]

theorem Call.level_of_event? {call : Call} {event : LogEvent} (h : call.event? = some event) :
    event.level = .debug := by
  cases call with
  | insert _ | read _ | update _ | delete _ =>
    cases h
    rfl
  | start _ | commit _ _ | rollback _ _ => cases h

namespace Client
variable {σ α κ : Type}

def openSessions (client : Client σ) : List Session := client.sessions.reduceOption

/-- The warnings that are let through, oldest first. -/
def warnings (threshold : LogThreshold) (client : Client σ) : List LogEvent :=
  client.world.log.filter (LogEvent.warns threshold)

def settled? (client : Client σ) : Operation α → Option Settlement
  | .commit index => (client.session? index).map (Settlement.mk .committed)
  | .rollback index => (client.session? index).map (Settlement.mk .rolledBack)
  | .drop index => (client.session? index).map (Settlement.mk .dropped)
  | _ => none

/-! ## Operations -/

theorem settled?_request {ρ : Type} (request? : Except Failure ρ) {sent : ρ → Call}
    (h : ∀ request, (sent request).settled? = none) :
    (request?.toOption.map sent).toList.filter (fun call => call.settled?.isSome) = [] := by
  refine List.filter_eq_nil_iff.2 fun call hc => ?_
  obtain ⟨request, -, rfl⟩ := sent_iff.1 (Option.mem_toList.1 hc)
  simp [h]

/-- Of the calls of an operation, those that settle a transaction are those of its ending. -/
theorem settling_call? (client : Client σ) (type : DocumentType α) (operation : Operation α) :
    (client.call? type operation).toList.filter (fun call => call.settled?.isSome) =
      (client.settled? operation).toList.flatMap Settlement.calls := by
  cases operation with
  | commit index | rollback index =>
    rw [call?, settled?]
    cases client.session? index <;> rfl
  | drop index =>
    rw [call?, settled?]
    cases client.session? index <;> rfl
  | start database? | advance cursor | drain cursor => rfl
  | _ => exact settled?_request _ fun _ => rfl

/-- An operation that settles a session makes no calls but those of the ending. -/
theorem call?_of_settled {client : Client σ} {type : DocumentType α} {operation : Operation α}
    {x : Settlement} (h : client.settled? operation = some x) :
    (client.call? type operation).toList = x.calls := by
  cases operation with
  | commit index | rollback index =>
    obtain ⟨s, hs, rfl⟩ := Option.map_eq_some_iff.1 h
    rw [call?, hs]
    rfl
  | drop index =>
    obtain ⟨s, -, rfl⟩ := Option.map_eq_some_iff.1 h
    rfl
  | _ => cases h

theorem filter_warns_eq_nil {threshold : LogThreshold} {events : List LogEvent}
    (h : ∀ event ∈ events, event.level ≠ .warn) : events.filter (LogEvent.warns threshold) = [] :=
  List.filter_eq_nil_iff.2 fun event he => by simp [LogEvent.not_warns (h event he)]

theorem filter_partingEvents (threshold : LogThreshold) (s : Session) :
    s.partingEvents.filter (LogEvent.warns threshold) = Settlement.warnings threshold ⟨.dropped, s⟩ := by
  cases hf : s.finished <;>
    simp [Session.partingEvents, Settlement.warnings, hf, List.filter_cons, LogEvent.warns,
      LogEvent.level]

theorem warnings_noted (threshold : LogThreshold) (t : Transport σ) (client : Client σ)
    (type : DocumentType α) (operation : Operation α) :
    (client.noted t type operation).filter (LogEvent.warns threshold) =
      (client.settled? operation).toList.flatMap (Settlement.warnings threshold) := by
  have hreq : ∀ call? : Option Call,
      (call?.bind Call.event?).toList.filter (LogEvent.warns threshold) = [] := by
    intro call?
    refine filter_warns_eq_nil fun event he => ?_
    obtain ⟨call, -, hc⟩ := Option.bind_eq_some_iff.1 (Option.mem_toList.1 he)
    rw [Call.level_of_event? hc]
    exact LogLevel.noConfusion
  cases operation with
  | start database? =>
    refine filter_warns_eq_nil fun event he => ?_
    obtain ⟨token, -, rfl⟩ := Option.map_eq_some_iff.1 (Option.mem_toList.1 he)
    exact LogLevel.noConfusion
  | commit index | rollback index =>
    rw [noted, settled?]
    cases client.session? index with
    | none => rfl
    | some s => simp [LogEvent.warns, LogEvent.level, Settlement.warnings]
  | drop index =>
    rw [noted, settled?]
    cases client.session? index with
    | none => rfl
    | some s =>
      simp only [Option.toList_some, Option.map_some, List.flatMap_singleton]
      exact filter_partingEvents threshold s
  | advance cursor | drain cursor => rfl
  | _ => exact hreq (client.announced? type _)

theorem warnings_operate (threshold : LogThreshold) (t : Transport σ) (client : Client σ)
    (type : DocumentType α) (operation : Operation α) :
    (client.operate t type operation).2.warnings threshold =
      client.warnings threshold ++
        (client.settled? operation).toList.flatMap (Settlement.warnings threshold) := by
  rw [warnings, log_operate, List.filter_append, warnings_noted]
  rfl

end Client

/-- A place that is left empty takes one session from a list. -/
theorem reduceOption_set_none {α : Type} {l : List (Option α)} {index : Nat} {a : α}
    (h : l[index]?.join = some a) :
    l.reduceOption.Perm (a :: (l.set index none).reduceOption) := by
  induction l generalizing index with
  | nil => cases h
  | cons x l ih =>
    cases index with
    | zero =>
      cases h
      rw [List.set_cons_zero, List.reduceOption_cons_of_some, List.reduceOption_cons_of_none]
    | succ index =>
      have hi := ih (show l[index]?.join = some a from h)
      rw [List.set_cons_succ]
      cases x with
      | none =>
        rw [List.reduceOption_cons_of_none, List.reduceOption_cons_of_none]
        exact hi
      | some b =>
        rw [List.reduceOption_cons_of_some, List.reduceOption_cons_of_some]
        exact (hi.cons b).trans (List.Perm.swap a b _)

namespace Client
variable {σ α κ : Type} {client : Client σ}

theorem open_finish {index : Nat} {action : Session → Action σ Unit} {ending : Ending} :
    client.openSessions.Perm
      (((client.session? index).map (Settlement.mk ending)).toList.map Settlement.session ++
        (client.finish index action : Except Failure (Outcome α) × Client σ).2.openSessions) := by
  unfold finish
  cases hs : client.session? index with
  | none => exact List.Perm.refl _
  | some s => exact reduceOption_set_none hs

theorem open_of_not_start {t : Transport σ} {type : DocumentType α} {operation : Operation α}
    (h : ∀ database?, operation ≠ .start database?) {rest : List Session}
    (hp : client.openSessions.Perm rest) :
    (((client.operate t type operation).1.toOption.bind Outcome.session?).toList ++
      client.openSessions).Perm rest := by
  have hn : (client.operate t type operation).1.toOption.bind Outcome.session? = none := by
    refine Option.eq_none_iff_forall_ne_some.2 fun s hs => ?_
    obtain ⟨database?, ho, -⟩ := start_of_session? hs
    exact h database? ho
  rw [hn]
  exact hp

theorem open_start {t : Transport σ} {database : String} :
    (((client.start t database : Except Failure (Outcome α) × Client σ).1.toOption.bind
        Outcome.session?).toList ++ client.openSessions).Perm
      (client.start t database : Except Failure (Outcome α) × Client σ).2.openSessions := by
  rw [openSessions, openSessions, sessions_start, result_of_start, List.reduceOption_append]
  cases (t.start database client.world.transport).1 with
  | error e => exact .of_eq (List.append_nil _).symm
  | ok token => exact (List.perm_append_singleton _ _).symm

/-- What an operation opens and what was open before is what it settles and what is open after it. -/
theorem open_operate (t : Transport σ) (client : Client σ) (type : DocumentType α)
    (operation : Operation α) :
    (((client.operate t type operation).1.toOption.bind Outcome.session?).toList ++
        client.openSessions).Perm
      ((client.settled? operation).toList.map Settlement.session ++
        (client.operate t type operation).2.openSessions) := by
  cases operation with
  | start database? => exact open_start
  | commit index | rollback index | drop index => exact open_of_not_start (by simp) open_finish
  | openCursor place filter? projection? =>
    refine open_of_not_start (by simp) ?_
    rw [operate, openSessions, openSessions, sessions_openCursor]
    exact List.Perm.refl _
  | advance cursor =>
    have hs : (client.operate t type (.advance cursor)).2.sessions = client.sessions := by
      simp only [operate]
      split
      · rfl
      · rename_i stream hs
        cases stream <;> rfl
    refine open_of_not_start (by simp) ?_
    rw [openSessions, openSessions, hs]
    exact List.Perm.refl _
  | _ => exact open_of_not_start (by simp) (List.Perm.refl _)

end Client

/-! ## Runs -/

section Lists
universe u v
variable {α : Type u} {β : Type v}

theorem filterMap_cons_toList (f : α → Option β) (a : α) (l : List α) :
    (a :: l).filterMap f = (f a).toList ++ l.filterMap f := by
  rw [List.filterMap_cons]
  cases f a <;> rfl

/-- What is labelled with a key comes from the one element that has the key. -/
theorem filter_flatMap_of_nodup {κ : Type} [DecidableEq κ] {f : α → List β} {key : α → κ}
    {label? : β → Option κ} (hf : ∀ a, ∀ b ∈ f a, label? b = some (key a)) {l : List α}
    (hn : (l.map key).Nodup) {a : α} (ha : a ∈ l) :
    (l.flatMap f).filter (fun b => label? b = some (key a)) = f a := by
  have hself : ∀ a, (f a).filter (fun b => label? b = some (key a)) = f a := fun a =>
    List.filter_eq_self.2 fun b hb => by simp [hf a b hb]
  have hother : ∀ a', key a' ≠ key a → (f a').filter (fun b => label? b = some (key a)) = [] :=
    fun a' hne => List.filter_eq_nil_iff.2 fun b hb => by simp [hf a' b hb, hne]
  induction l with
  | nil => cases ha
  | cons a' l ih =>
    rw [List.map_cons, List.nodup_cons] at hn
    rw [List.flatMap_cons, List.filter_append]
    rcases List.mem_cons.1 ha with rfl | ha
    · have hrest : (l.flatMap f).filter (fun b => label? b = some (key a)) = [] := by
        rw [List.filter_flatMap]
        refine List.flatMap_eq_nil_iff.2 fun a' ha' => hother a' fun hk => hn.1 ?_
        exact hk ▸ List.mem_map_of_mem ha'
      rw [hself, hrest, List.append_nil]
    · have hne : key a' ≠ key a := fun hk => hn.1 (hk ▸ List.mem_map_of_mem ha)
      rw [hother a' hne, ih hn.2 ha, List.nil_append]

end Lists

def Moment.settled? {σ κ : Type} (m : Moment σ κ) : Option Settlement :=
  match m.turn.step with
  | .operation operation => m.before.settled? operation
  | .control _ => none

namespace Client
variable {σ κ : Type} {t : Transport σ} {calls : σ → List Call} {apply : κ → σ → σ}

theorem settling_take (h : t.Records calls)
    (ha : ∀ instruction s, calls (apply instruction s) = calls s) (client : Client σ) (turn : Turn κ) :
    ((client.take t apply turn).sent calls).filter (fun call => call.settled?.isSome) =
      (client.take t apply turn).settled?.toList.flatMap Settlement.calls := by
  rw [sent_take h ha]
  obtain ⟨Doc, type, step⟩ := turn
  cases step with
  | operation operation => exact settling_call? client type operation
  | control instruction => rfl

theorem sent_of_settled (h : t.Records calls)
    (ha : ∀ instruction s, calls (apply instruction s) = calls s) {turn : Turn κ} {client : Client σ}
    {x : Settlement} (hx : (client.take t apply turn).settled? = some x) :
    (client.take t apply turn).sent calls = x.calls := by
  rw [sent_take h ha]
  obtain ⟨Doc, type, step⟩ := turn
  cases step with
  | operation operation => exact call?_of_settled hx
  | control instruction => cases hx

theorem warnings_take (threshold : LogThreshold) (client : Client σ) (turn : Turn κ) :
    (client.take t apply turn).after.warnings threshold =
      client.warnings threshold ++
        (client.take t apply turn).settled?.toList.flatMap (Settlement.warnings threshold) := by
  obtain ⟨Doc, type, step⟩ := turn
  cases step with
  | operation operation => exact warnings_operate threshold t client type operation
  | control instruction => exact (List.append_nil _).symm

theorem open_take (client : Client σ) (turn : Turn κ) :
    ((client.take t apply turn).opened?.toList ++ client.openSessions).Perm
      ((client.take t apply turn).settled?.toList.map Settlement.session ++
        (client.take t apply turn).after.openSessions) := by
  obtain ⟨Doc, type, step⟩ := turn
  cases step with
  | operation operation => exact open_operate t client type operation
  | control instruction => exact List.Perm.refl _

/-- The sessions that turns open and those that were open are those that the turns settle and those
that are open after them. -/
theorem open_trace (t : Transport σ) (apply : κ → σ → σ) (turns : List (Turn κ))
    (client : Client σ) :
    ((trace t apply turns client).filterMap Moment.opened? ++ client.openSessions).Perm
      (((trace t apply turns client).filterMap Moment.settled?).map Settlement.session ++
        (takeAll t apply turns client).openSessions) := by
  induction turns generalizing client with
  | nil => exact List.Perm.refl _
  | cons turn rest ih =>
    let m := client.take t apply turn
    have hl : takeAll t apply (turn :: rest) client = takeAll t apply rest m.after := rfl
    rw [trace, filterMap_cons_toList, filterMap_cons_toList, List.map_append, hl, List.append_assoc,
      List.append_assoc]
    calc m.opened?.toList ++ ((trace t apply rest m.after).filterMap Moment.opened? ++ client.openSessions)
      _ |>.Perm ((trace t apply rest m.after).filterMap Moment.opened? ++
            (m.opened?.toList ++ client.openSessions)) := List.perm_append_comm_assoc _ _ _
      _ |>.Perm ((trace t apply rest m.after).filterMap Moment.opened? ++
            (m.settled?.toList.map Settlement.session ++ m.after.openSessions)) :=
          (open_take client turn).append_left _
      _ |>.Perm (m.settled?.toList.map Settlement.session ++
            ((trace t apply rest m.after).filterMap Moment.opened? ++ m.after.openSessions)) :=
          List.perm_append_comm_assoc _ _ _
      _ |>.Perm _ := (ih m.after).append_left _

/-- What turns add to a list with the sessions that they settle. -/
theorem flatMap_settled {β : Type} (passed : List (Moment σ κ)) (f : Settlement → List β) :
    passed.flatMap (fun m => m.settled?.toList.flatMap f) =
      (passed.filterMap Moment.settled?).flatMap f := by
  rw [List.filterMap_eq_flatMap_toList, List.flatMap_assoc]

/-- The commits and rollbacks of turns are those of the sessions that they settle, in order. -/
theorem settling_trace (h : t.Records calls)
    (ha : ∀ instruction s, calls (apply instruction s) = calls s) (turns : List (Turn κ))
    (client : Client σ) :
    ((trace t apply turns client).flatMap (Moment.sent calls)).filter
        (fun call => call.settled?.isSome) =
      ((trace t apply turns client).filterMap Moment.settled?).flatMap Settlement.calls := by
  rw [← flatMap_settled, List.filter_flatMap]
  refine List.flatMap_congr fun m hm => ?_
  obtain ⟨before, turn, rfl⟩ := exists_take_of_mem hm
  exact settling_take h ha before turn

theorem warnings_takeAll (threshold : LogThreshold) (turns : List (Turn κ)) (client : Client σ) :
    (takeAll t apply turns client).warnings threshold =
      client.warnings threshold ++
        ((trace t apply turns client).filterMap Moment.settled?).flatMap (Settlement.warnings threshold) := by
  rw [← flatMap_settled]
  exact view_takeAll (warnings threshold) _ (warnings_take threshold) turns client

theorem warnings_close (threshold : LogThreshold) (client : Client σ) :
    client.close.warnings threshold =
      client.warnings threshold ++
        (client.openSessions.map (Settlement.mk .dropped)).flatMap (Settlement.warnings threshold) := by
  rw [warnings, world_close, List.filter_append, List.filter_flatMap, List.flatMap_map]
  simp only [filter_partingEvents]
  rfl

end Client

/-! ## Transactions of a recording transport -/

theorem Recording.ids_counting_injective (keyField : String) :
    Function.Injective (counting keyField).ids := by
  intro a b h
  have hd : digits (a + 1) = digits (b + 1) := by
    have hs := congrArg String.toList ((String.append_right_inj "tx-").1 h)
    simpa [digits, toString, Nat.repr] using hs
  have hn : a + 1 = b + 1 := by rw [← ofDigits_digits (a + 1), hd, ofDigits_digits]
  exact Nat.succ.inj hn

namespace RecordedMoment
variable {m : RecordedMoment}

theorem Course.started_le (h : m.Course) : m.stateBefore.started ≤ m.stateAfter.started := by
  cases h with
  | instructed control _ _ state =>
    rw [state]
    cases control <;> exact Nat.le_refl _
  | quiet _ _ _ _ _ state => rw [state]
  | failed _ _ _ _ _ _ _ _ state =>
    rw [state]
    exact Nat.le_refl _
  | answered _ sent _ _ _ _ _ state =>
    rw [state]
    cases sent with
    | start _ => exact Nat.le_succ _
    | _ => exact Nat.le_refl _

theorem Course.ids_eq (h : m.Course) : m.stateAfter.ids = m.stateBefore.ids := by
  cases h with
  | instructed control _ _ state =>
    rw [state]
    cases control <;> rfl
  | quiet _ _ _ _ _ state => rw [state]
  | failed _ _ _ _ _ _ _ _ state =>
    rw [state]
    rfl
  | answered _ sent _ _ _ _ _ state =>
    rw [state]
    cases sent <;> rfl

end RecordedMoment

namespace Client
variable {client : Client Recording}

/-- A session that is opened has the next identifier. -/
theorem started_of_opened? {turn : Turn Recording.Control} {s : Session}
    (ho : (client.take Recording.transport Recording.Control.apply turn).opened? = some s) :
    s.token.txId = client.world.transport.ids client.world.transport.started ∧
      (client.take Recording.transport Recording.Control.apply turn).after.world.transport.started =
        client.world.transport.started + 1 := by
  have hm : client.take Recording.transport Recording.Control.apply turn ∈ recorded [turn] client :=
    List.mem_singleton_self _
  obtain ⟨hmade, -, htoken⟩ := start_of_opened? Recording.records Recording.calls_apply hm ho
  cases course_take client turn with
  | instructed _ _ made _ | quiet _ _ _ made _ _ => cases made.symm.trans hmade
  | failed _ _ _ _ _ _ _ result _ =>
    rw [Moment.opened?, result] at ho
    cases ho
  | answered _ _ _ _ made ready _ state =>
    obtain ⟨rfl, -⟩ := List.cons.inj (made.symm.trans hmade)
    have ht := Except.ok.inj ((Recording.start_of_ready ready s.database).symm.trans htoken)
    exact ⟨congrArg SessionToken.txId ht.symm, congrArg Recording.started state⟩

/-- Sessions that are opened in a run have identifiers that were not given out before it. No two have the
same, if no identifier is given out twice. -/
theorem transactions_recorded (turns : List (Turn Recording.Control)) (client : Client Recording) :
    (∀ s ∈ (recorded turns client).filterMap Moment.opened?,
        ∃ n, client.world.transport.started ≤ n ∧ s.token.txId = client.world.transport.ids n) ∧
      (Function.Injective client.world.transport.ids →
        (((recorded turns client).filterMap Moment.opened?).map fun s => s.token.txId).Nodup) := by
  induction turns generalizing client with
  | nil => exact ⟨nofun, fun _ => List.nodup_nil⟩
  | cons turn rest ih =>
    let m := client.take Recording.transport Recording.Control.apply turn
    have hcourse : RecordedMoment.Course m := course_take client turn
    have hle : client.world.transport.started ≤ m.after.world.transport.started := hcourse.started_le
    have hids : m.after.world.transport.ids = client.world.transport.ids := hcourse.ids_eq
    obtain ⟨hnew, hnodup⟩ := ih m.after
    rw [hids] at hnew hnodup
    have hlater : ∀ s ∈ (recorded rest m.after).filterMap Moment.opened?,
        ∃ n, client.world.transport.started ≤ n ∧ s.token.txId = client.world.transport.ids n :=
      fun s hs => (hnew s hs).imp fun n hn => ⟨hle.trans hn.1, hn.2⟩
    have hr : (recorded (turn :: rest) client).filterMap Moment.opened? =
        m.opened?.toList ++ (recorded rest m.after).filterMap Moment.opened? :=
      filterMap_cons_toList _ _ _
    rw [hr]
    cases ho : m.opened? with
    | none => exact ⟨hlater, hnodup⟩
    | some s =>
      obtain ⟨htx, hstarted⟩ := started_of_opened? ho
      refine ⟨List.forall_mem_cons.2 ⟨⟨_, Nat.le_refl _, htx⟩, hlater⟩, fun hinj => ?_⟩
      refine List.nodup_cons.2 ⟨fun hmem => ?_, hnodup hinj⟩
      obtain ⟨s', hs', he⟩ := List.mem_map.1 hmem
      obtain ⟨n, hn, htx'⟩ := hnew s' hs'
      have hlt : client.world.transport.started + 1 ≤ n := hstarted ▸ hn
      exact absurd (hinj (htx'.symm.trans (he.trans htx))) (Nat.ne_of_gt hlt)

end Client

/-! ## Accounts -/

/-- The sessions that turns settled, and those that are dropped when the client is closed after them. -/
def settlements (passed : List RecordedMoment) (left : List Session) : List Settlement :=
  passed.filterMap Moment.settled? ++ left.map (Settlement.mk .dropped)

/-- The sessions of turns that were taken one after another, with those left open after them and the
warnings that there were until the client was closed. -/
structure SettledOnce (threshold : LogThreshold) (passed : List RecordedMoment) (left : List Session)
    (warned : List LogEvent) : Prop where
  /-- The sessions that were opened are those that were settled, each once. -/
  accounted : (passed.filterMap Moment.opened?).Perm
    ((settlements passed left).map Settlement.session)
  /-- A session is opened unfinished. -/
  unfinished : ∀ s ∈ passed.filterMap Moment.opened?, s.finished = false
  /-- No two sessions have the same transaction. -/
  distinct : ((passed.filterMap Moment.opened?).map fun s => s.token.txId).Nodup
  /-- Of a transaction there are the calls that the ending of its session takes, and no others. -/
  calls : ∀ x ∈ settlements passed left,
    (passed.flatMap RecordedMoment.made).filter
      (fun call => call.settled? = some x.session.token.txId) = x.calls
  /-- Of a transaction there are the warnings that the ending of its session leaves, and no others. -/
  warnings : ∀ x ∈ settlements passed left,
    warned.filter (fun event => event.abandoned? = some x.session.token.txId) = x.warnings threshold
  /-- A turn that settles a session makes the calls that the ending takes, and no others. -/
  settling : ∀ m ∈ passed, ∀ x, m.settled? = some x → m.made = x.calls
  /-- A turn makes these calls and leaves these warnings for the session that it settles, whatever the
  calls come to, and none for others. -/
  turn : ∀ m ∈ passed,
    m.made.filter (fun call => call.settled?.isSome) = m.settled?.toList.flatMap Settlement.calls ∧
      m.after.warnings threshold =
        m.before.warnings threshold ++ m.settled?.toList.flatMap (Settlement.warnings threshold)
  /-- A transaction that is committed or rolled back belongs to a session that was opened before. -/
  issued : ∀ front m back, passed = front ++ m :: back →
    ∀ call ∈ m.made, call.settled?.isSome = true →
      ∃ b ∈ front, ∃ s ∈ b.opened?, call.database = s.database ∧ call.token? = some s.token
  /-- A warning names the transaction and the database of a session that was opened. -/
  named : ∀ event ∈ warned, ∃ s ∈ passed.filterMap Moment.opened?,
    event = .abandoned s.token.txId s.database
  /-- A beginning that fails opens no session and logs nothing. -/
  failed : ∀ m ∈ passed, ∀ database? e, m.turn.step = .operation (.start database?) →
    m.result = .error e → m.opened? = none ∧ m.after.sessions = m.before.sessions ∧
      m.after.world.log = m.before.world.log

theorem Settlement.settled?_of_mem_calls {x : Settlement} {call : Call} (h : call ∈ x.calls) :
    call.settled? = some x.session.token.txId := by
  obtain ⟨ending, s⟩ := x
  cases ending with
  | committed | rolledBack =>
    cases List.mem_singleton.1 h
    rfl
  | dropped => cases h

theorem Settlement.eq_of_mem_warnings {threshold : LogThreshold} {x : Settlement} {event : LogEvent}
    (h : event ∈ x.warnings threshold) :
    event = .abandoned x.session.token.txId x.session.database := by
  obtain ⟨ending, s⟩ := x
  cases ending with
  | committed | rolledBack => cases h
  | dropped => exact List.mem_singleton.1 (List.mem_ite_nil_right.1 h).2

theorem calls_dropped (left : List Session) :
    (left.map (Settlement.mk .dropped)).flatMap Settlement.calls = [] := by
  refine List.flatMap_eq_nil_iff.2 fun x hx => ?_
  obtain ⟨s, -, rfl⟩ := List.mem_map.1 hx
  rfl

namespace Client
variable {client : Client Recording}

theorem start_of_error {turn : Turn Recording.Control} {database? : Option String} {e : Failure}
    (hstep : turn.step = .operation (.start database?))
    (hr : (client.take Recording.transport Recording.Control.apply turn).result = .error e) :
    (client.take Recording.transport Recording.Control.apply turn).opened? = none ∧
      (client.take Recording.transport Recording.Control.apply turn).after.sessions =
        client.sessions ∧
      (client.take Recording.transport Recording.Control.apply turn).after.world.log =
        client.world.log := by
  obtain ⟨Doc, type, step⟩ := turn
  obtain rfl : step = .operation (.start database?) := hstep
  have hr' : (client.start Recording.transport (client.databaseName database?) :
      Except Failure (Outcome Doc) × Client Recording).1 = .error e := hr
  have ht := map_eq_error_iff.1 ((result_of_start _).symm.trans hr')
  refine ⟨by rw [Moment.opened?, hr]; rfl, ?_, ?_⟩
  · refine (sessions_start Recording.transport _).trans ?_
    rw [ht]
    exact List.append_nil _
  · refine (log_start client Recording.transport _).trans ?_
    rw [ht]
    exact List.append_nil _

/-- Over a recording transport that gives out no identifier twice, every session comes to one end in
every run of a client that has none open at first. -/
theorem settledOnce_recorded (threshold : LogThreshold) (hs : client.sessions = [])
    (hids : Function.Injective client.world.transport.ids) (turns : List (Turn Recording.Control)) :
    let passed := recorded turns client
    let last := takeAll Recording.transport Recording.Control.apply turns client
    ∃ warned, last.close.warnings threshold = client.warnings threshold ++ warned ∧
      last.close.world.transport.calls =
        client.world.transport.calls ++ passed.flatMap RecordedMoment.made ∧
      SettledOnce threshold passed last.openSessions warned := by
  intro passed last
  have hopen : client.openSessions = [] := by
    rw [openSessions, hs]
    rfl
  have haccounted : (passed.filterMap Moment.opened?).Perm
      ((settlements passed last.openSessions).map Settlement.session) := by
    have ho := open_trace Recording.transport Recording.Control.apply turns client
    rw [hopen, List.append_nil] at ho
    rw [settlements, List.map_append, List.map_map]
    exact ho.trans (.of_eq (congrArg _ (List.map_id _).symm))
  have hdistinct := (transactions_recorded turns client).2 hids
  have hkeys : ((settlements passed last.openSessions).map fun x => x.session.token.txId).Nodup := by
    have hp := (haccounted.map fun s => s.token.txId).nodup_iff.1 hdistinct
    rwa [List.map_map] at hp
  have hcalls : (passed.flatMap RecordedMoment.made).filter (fun call => call.settled?.isSome) =
      (settlements passed last.openSessions).flatMap Settlement.calls := by
    rw [settlements, List.flatMap_append, calls_dropped, List.append_nil]
    exact settling_trace Recording.records Recording.calls_apply turns client
  have hmade : last.close.world.transport.calls =
      client.world.transport.calls ++ passed.flatMap RecordedMoment.made := by
    rw [transport_close]
    exact calls_takeAll Recording.records Recording.calls_apply turns client
  refine ⟨(settlements passed last.openSessions).flatMap (Settlement.warnings threshold), ?_, hmade,
    haccounted, ?_, hdistinct, ?_, ?_, ?_, ?_, ?_, ?_, ?_⟩
  · rw [warnings_close, warnings_takeAll, settlements, List.flatMap_append, List.append_assoc]
  · intro s ho
    obtain ⟨m, hm, ho⟩ := List.mem_filterMap.1 ho
    exact (start_of_opened? Recording.records Recording.calls_apply hm ho).2.1
  · intro x hx
    have hf : ∀ made : List Call,
        made.filter (fun call => call.settled? = some x.session.token.txId) =
          (made.filter fun call => call.settled?.isSome).filter
            fun call => call.settled? = some x.session.token.txId := by
      intro made
      rw [List.filter_filter]
      refine List.filter_congr fun call _ => ?_
      cases call.settled? <;> simp
    rw [hf, hcalls]
    exact filter_flatMap_of_nodup (fun _ _ hb => Settlement.settled?_of_mem_calls hb) hkeys hx
  · intro x hx
    refine filter_flatMap_of_nodup (fun a b hb => ?_) hkeys hx
    rw [Settlement.eq_of_mem_warnings hb]
    rfl
  · intro m hm x hx
    obtain ⟨before, turn, rfl⟩ := exists_take_of_mem hm
    exact sent_of_settled Recording.records Recording.calls_apply hx
  · intro m hm
    obtain ⟨before, turn, rfl⟩ := exists_take_of_mem hm
    exact ⟨settling_take Recording.records Recording.calls_apply before turn,
      warnings_take threshold before turn⟩
  · intro front m back hsplit call hcall hsome
    obtain ⟨token, ht⟩ := Call.token?_of_settled hsome
    obtain ⟨b, hb, ho, -⟩ := issued_of_sent Recording.records Recording.calls_apply hs hsplit hcall ht
    exact ⟨b, hb, _, ho, rfl, ht⟩
  · intro event he
    obtain ⟨x, hx, hw⟩ := List.mem_flatMap.1 he
    exact ⟨x.session, haccounted.mem_iff.2 (List.mem_map_of_mem hx), Settlement.eq_of_mem_warnings hw⟩
  · intro m hm database? e hstep hr
    obtain ⟨before, turn, rfl⟩ := exists_take_of_mem hm
    exact start_of_error hstep hr

/-- Four transactions: one is committed by a call that fails, one is rolled back, one is dropped and one
is left open. -/
def fourTransactions : List (Turn Recording.Control) :=
  let type := DocumentType.anyJson "things" [] ["id"]
  [⟨Json, type, .operation (.start (some "a"))⟩,
    ⟨Json, type, .operation (.start (some "b"))⟩,
    ⟨Json, type, .operation (.start (some "b"))⟩,
    ⟨Json, type, .operation (.start none)⟩,
    ⟨Json, type, .control (.armFailure "down")⟩,
    ⟨Json, type, .operation (.commit 0)⟩,
    ⟨Json, type, .operation (.rollback 1)⟩,
    ⟨Json, type, .operation (.drop 2)⟩]

theorem settledOnce_recorded_four_transactions :
    let client : Client Recording := ⟨.defaults, ⟨.counting "id", []⟩, [], []⟩
    let passed := recorded fourTransactions client
    let last := takeAll Recording.transport Recording.Control.apply fourTransactions client
    client.sessions = [] ∧ Function.Injective client.world.transport.ids ∧
      (settlements passed last.openSessions).map (fun x => (x.ending, x.session.token.txId)) =
        [(.committed, "tx-1"), (.rolledBack, "tx-2"), (.dropped, "tx-3"), (.dropped, "tx-4")] ∧
      ∃ warned, last.close.warnings (some .warn) = client.warnings (some .warn) ++ warned ∧
        last.close.world.transport.calls =
          client.world.transport.calls ++ passed.flatMap RecordedMoment.made ∧
        SettledOnce (some .warn) passed last.openSessions warned :=
  ⟨rfl, Recording.ids_counting_injective "id", by decide +kernel,
    settledOnce_recorded (some .warn) rfl (Recording.ids_counting_injective "id") fourTransactions⟩

end Client
end DocWire
