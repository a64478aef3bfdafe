import DocWire.Proofs.Client.Conclusions
import DocWire.Proofs.Client.Trace
import DocWire.Proofs.Transport.Recording

/-!
# Turns over a recording transport

`Course` lists what can become of a turn: it instructs the transport, it stops before it makes a call,
the call that it makes meets a failure, or the call is answered. Main statements: `operate_of_refusal`,
an operation whose call is refused fails by the refusal; `course_take`, every turn takes one of the
courses; and `course_of_mem`, so does every turn of a run.
-/
set_option autoImplicit false

namespace DocWire

/-- An operation whose call is refused fails by the refusal. -/
theorem Client.operate_of_refusal {σ α : Type} {t : Transport σ} {client : Client σ}
    {type : DocumentType α} {operation : Operation α} {call : Call} {e : Failure}
    (hc : client.call? type operation = some call)
    (hr : t.refusal? client.world.transport call = some e) :
    (client.operate t type operation).1 = .error e := by
  obtain ⟨result, hresult, hconc⟩ := exists_concludes (t := t) hc
  rw [hresult]
  cases hconc <;>
    · rw [errorOf?_eq_some_iff.1 hr]
      rfl

/-! ## Courses -/

abbrev RecordedMoment := Moment Recording Recording.Control

namespace RecordedMoment

abbrev made (m : RecordedMoment) : List Call := m.sent Recording.calls

abbrev stateBefore (m : RecordedMoment) : Recording := m.before.world.transport

abbrev stateAfter (m : RecordedMoment) : Recording := m.after.world.transport

/-- What becomes of a turn. -/
inductive Course (m : RecordedMoment) : Prop where
  | instructed (control : Recording.Control) (step : m.turn.step = .control control)
    (made : m.made = []) (state : m.stateAfter = control.apply m.stateBefore)
  /-- The operation comes to its end without a call. -/
  | quiet (operation : Operation m.turn.Doc) (step : m.turn.step = .operation operation)
    (call : m.before.call? m.turn.type operation = none) (made : m.made = [])
    (result : m.result = (m.before.operate Recording.transport m.turn.type operation).1)
    (state : m.stateAfter = m.stateBefore)
  /-- The call of the operation meets a failure. -/
  | failed (operation : Operation m.turn.Doc) (sent : Call) (message : String)
    (step : m.turn.step = .operation operation)
    (call : m.before.call? m.turn.type operation = some sent) (made : m.made = [sent])
    (armed : m.stateBefore.failure? = some message)
    (result : m.result = .error (.transport (.failed message)))
    (state : m.stateAfter = { m.stateBefore.noting sent with failure? := none })
  /-- The call of the operation is answered. -/
  | answered (operation : Operation m.turn.Doc) (sent : Call)
    (step : m.turn.step = .operation operation)
    (call : m.before.call? m.turn.type operation = some sent) (made : m.made = [sent])
    (ready : m.stateBefore.failure? = none)
    (result : m.result = (m.before.operate Recording.transport m.turn.type operation).1)
    (state : m.stateAfter = Recording.serve sent (m.stateBefore.noting sent))

end RecordedMoment

namespace Client

abbrev recorded (turns : List (Turn Recording.Control)) (client : Client Recording) :
    List RecordedMoment := trace Recording.transport Recording.Control.apply turns client

theorem course_take (client : Client Recording) (turn : Turn Recording.Control) :
    RecordedMoment.Course (client.take Recording.transport Recording.Control.apply turn) := by
  have hmade := sent_take Recording.records Recording.calls_apply client turn
  obtain ⟨Doc, type, step⟩ := turn
  cases step with
  | control control => exact .instructed control rfl hmade rfl
  | operation operation =>
    have hstate := transport_operate Recording.transport client type operation
    have hcall : client.stepCall? type (.operation operation : Step Doc Recording.Control) =
        client.call? type operation := rfl
    rw [hcall] at hmade
    cases hc : client.call? type operation with
    | none =>
      rw [hc] at hstate hmade
      exact .quiet operation rfl hc hmade rfl hstate
    | some sent =>
      rw [hc] at hstate hmade
      cases hf : client.world.transport.failure? with
      | none =>
        exact .answered operation sent rfl hc hmade hf rfl
          (hstate.trans (Recording.deliver_of_ready hf sent))
      | some message =>
        have hr := Recording.refusal?_eq client.world.transport sent
        rw [hf] at hr
        exact .failed operation sent message rfl hc hmade hf (operate_of_refusal hc hr)
          (hstate.trans (Recording.deliver_of_failure hf sent))

theorem course_of_mem {turns : List (Turn Recording.Control)} {client : Client Recording}
    {m : RecordedMoment} (h : m ∈ recorded turns client) : m.Course := by
  obtain ⟨before, turn, rfl⟩ := exists_take_of_mem h
  exact course_take before turn

end Client
end DocWire
