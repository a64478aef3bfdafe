import DocWire.Proofs.Client.Recorded
import DocWire.Proofs.Client.Sessions
import DocWire.Proofs.Document.Merge

/-!
# Failures that are armed

A failure that was armed hits the next call of any kind, and nothing else. Main statements:
`failure?_iff_pending`, what is armed after a run is what was armed last, unless a call was made since;
`kind_ne_of_answered`, an operation whose call is answered does not fail by the transport; and
`failsOnce_recorded`, what armed failures do in every run.
-/
set_option autoImplicit false

namespace DocWire

/-! ## Operations whose calls are answered -/

namespace DocumentStream
variable {α : Type} {type : DocumentType α} {documents : List ByteArray} {e : Failure}

theorem kind_ne_of_readItem {bytes : ByteArray} (h : readItem type (.ok bytes) = .error e) :
    e.kind ≠ .transport := by
  have hr : type.read bytes = .error e := h
  unfold DocumentType.read at hr
  cases hd : type.decode bytes with
  | error fault =>
    rw [hd] at hr
    cases hr
    exact FailureKind.noConfusion
  | ok doc =>
    rw [hd] at hr
    cases hr

theorem kind_ne_of_collect (h : collect type (documents.map .ok) = .error e) : e.kind ≠ .transport := by
  rw [collect_eq_mapM] at h
  obtain ⟨i, item, hi, hr, -⟩ := mapM_eq_error_iff.1 h
  obtain ⟨bytes, -, rfl⟩ := List.mem_map.1 (List.mem_of_getElem? hi)
  exact kind_ne_of_readItem hr

theorem kind_ne_of_first (h : first type (documents.map .ok) = .error e) : e.kind ≠ .transport := by
  cases documents with
  | nil => cases h
  | cons bytes rest => exact kind_ne_of_readItem (map_eq_error_iff.1 h)

end DocumentStream

namespace Collection
variable {α : Type} {type : DocumentType α} {docs : List α} {e : Failure}

theorem kind_ne_of_withKeys {field : String} {numbers : List UInt64} (hn : numbers.length = docs.length)
    (h : withKeys type docs (numbers.map (Recording.keyPayload field)) = .error e) :
    e.kind ≠ .transport := by
  unfold withKeys at h
  rw [if_pos (by rw [List.length_map, hn])] at h
  exact kind_ne_of_mergeAll h

/-- What a single document is merged to is the last document. -/
theorem lastInserted_of_withKeys {doc : α} {payload : ByteArray} {merged : List α}
    (h : withKeys type [doc] [payload] = .ok merged) : ∃ doc', lastInserted merged = .ok doc' := by
  have hm : mergeAll type [doc] [payload] = .ok merged := h
  obtain ⟨keys, -, hm⟩ := bind_eq_ok_iff.1 hm
  obtain ⟨doc', -, hm⟩ := bind_eq_ok_iff.1 hm
  obtain ⟨rest, hr, hm⟩ := bind_eq_ok_iff.1 hm
  cases hr
  cases hm
  exact ⟨doc', rfl⟩

theorem kind_ne_of_found {c : Collection α} {paths : List String} {doc? : Option α}
    (h : c.found paths doc? = .error e) : e.kind ≠ .transport := by
  unfold found at h
  split at h
  · cases h
  · cases h
    exact FailureKind.noConfusion

end Collection

namespace Client
variable {α : Type} {client : Client Recording} {type : DocumentType α} {operation : Operation α}
  {call : Call} {e : Failure}

/-- An operation whose call finds no failure armed does not fail by the transport. -/
theorem kind_ne_of_answered (hf : client.world.transport.failure? = none)
    (hc : client.call? type operation = some call)
    (hr : (client.operate Recording.transport type operation).1 = .error e) : e.kind ≠ .transport := by
  have hno : Recording.transport.refusal? client.world.transport call ≠ some e := by
    rw [Recording.refusal?_eq, hf]
    exact Option.some_ne_none e ∘ Eq.symm
  obtain ⟨result, hresult, hconc⟩ := exists_concludes (t := Recording.transport) hc
  rw [hresult] at hr
  cases hconc with
  | insertOne place doc request hl =>
    have hx := map_eq_error_iff.1 hr
    rw [Recording.insert_of_ready hf, hl, bind_ok] at hx
    rcases bind_eq_error_iff.1 hx with hw | ⟨merged, hw, hm⟩
    · exact Collection.kind_ne_of_withKeys (Recording.length_numbers _ _) hw
    · obtain ⟨doc', hd⟩ := Collection.lastInserted_of_withKeys hw
      cases hd.symm.trans hm
  | insertMany place docs request hl =>
    have hx := map_eq_error_iff.1 hr
    rw [Recording.insert_of_ready hf, hl, bind_ok] at hx
    exact Collection.kind_ne_of_withKeys (Recording.length_numbers _ _) hx
  | findMany place filter? projection? request =>
    have hx := map_eq_error_iff.1 hr
    rw [Recording.read_of_ready hf, bind_ok] at hx
    exact DocumentStream.kind_ne_of_collect hx
  | findOne place filter? projection? request =>
    have hx := map_eq_error_iff.1 hr
    rw [Recording.read_of_ready hf, bind_ok] at hx
    exact DocumentStream.kind_ne_of_first hx
  | findByKey place key request paths _ =>
    have hx := map_eq_error_iff.1 hr
    rw [Recording.read_of_ready hf, bind_ok] at hx
    rcases bind_eq_error_iff.1 hx with hx | ⟨doc?, -, hx⟩
    · exact DocumentStream.kind_ne_of_first hx
    · exact Collection.kind_ne_of_found hx
  | updateMany _ _ _ _ | deleteMany _ _ _ | openCursor _ _ _ _ | start _ | commit _ _ _
  | rollback _ _ _ => exact absurd (errorOf?_eq_some_iff.2 (map_eq_error_iff.1 hr)) hno

end Client

/-! ## Armed failures -/

namespace Recording

theorem failure?_serve (call : Call) (r : Recording) : (serve call r).failure? = r.failure? := by
  cases call <;> rfl

end Recording

namespace RecordedMoment

/-- The message of the failure that a turn arms, if it arms one. -/
def armed? (m : RecordedMoment) : Option String :=
  match m.turn.step with
  | .control (.armFailure message) => some message
  | _ => none

def Idle (m : RecordedMoment) : Prop := m.armed? = none ∧ m.made = []

/-- After turns a failure is pending: it was armed before them all or by one of them, and since then
none was armed and no call was made. -/
inductive Pending (first? : Option String) (passed : List RecordedMoment) (message : String) : Prop where
  | before (armed : first? = some message) (since : ∀ m ∈ passed, m.Idle)
  | during (front : List RecordedMoment) (m : RecordedMoment) (back : List RecordedMoment)
    (split : passed = front ++ m :: back) (armed : m.armed? = some message)
    (since : ∀ m ∈ back, m.Idle)

variable {m : RecordedMoment} {message : String}

/-- A turn leaves a failure armed when it arms it, or when it was armed and the turn is idle. -/
theorem Course.failure?_eq_some_iff (h : m.Course) :
    m.stateAfter.failure? = some message ↔
      m.armed? = some message ∨ m.Idle ∧ m.stateBefore.failure? = some message := by
  unfold Idle armed?
  cases h with
  | instructed control step made state =>
    rw [state, step, made]
    cases control <;> simp [Recording.Control.apply]
  | quiet operation step call made result state =>
    rw [state, step, made]
    simp
  | failed operation sent text step call made armed result state =>
    rw [state, step, made]
    simp
  | answered operation sent step call made ready result state =>
    rw [state, step, made, Recording.failure?_serve]
    simp [Recording.noting, ready]

/-- What is pending after a turn and others is what is pending after the others, from what the turn
left armed. -/
theorem pending_cons {first? next? : Option String} {passed : List RecordedMoment}
    (hn : next? = some message ↔ m.armed? = some message ∨ m.Idle ∧ first? = some message) :
    Pending first? (m :: passed) message ↔ Pending next? passed message := by
  constructor
  · rintro (⟨armed, since⟩ | ⟨front, m', back, split, armed, since⟩)
    · rw [List.forall_mem_cons] at since
      exact .before (hn.2 (.inr ⟨since.1, armed⟩)) since.2
    · cases front with
      | nil =>
        obtain ⟨rfl, rfl⟩ := List.cons.inj split
        exact .before (hn.2 (.inl armed)) since
      | cons m'' front =>
        obtain ⟨rfl, rfl⟩ := List.cons.inj split
        exact .during front m' back rfl armed since
  · rintro (⟨armed, since⟩ | ⟨front, m', back, rfl, armed, since⟩)
    · rcases hn.1 armed with ha | ⟨hi, ha⟩
      · exact .during [] m passed rfl ha since
      · exact .before ha (List.forall_mem_cons.2 ⟨hi, since⟩)
    · exact .during (m :: front) m' back rfl armed since

end RecordedMoment

open RecordedMoment in
/-- What failures that are armed do to turns that were taken one after another, if `first?` was armed
before them. -/
structure FailsOnce (first? : Option String) (passed : List RecordedMoment) : Prop where
  /-- A failure is armed before a turn just when it is pending. -/
  armed : ∀ front m back, passed = front ++ m :: back → ∀ message,
    (m.stateBefore.failure? = some message ↔ Pending first? front message)
  /-- A pending failure hits the call of a turn, whatever it is: the call is recorded, the operation
  fails by the failure, and but for that the transport is as it was. -/
  hit : ∀ front m back, passed = front ++ m :: back → ∀ message, Pending first? front message →
    ∀ call ∈ m.made, m.made = [call] ∧ m.result = .error (.transport (.failed message)) ∧
      m.stateAfter = { m.stateBefore with calls := m.stateBefore.calls ++ [call], failure? := none }
  /-- Where none is pending, the call of a turn is answered, and the operation does not fail by the
  transport. -/
  served : ∀ front m back, passed = front ++ m :: back → (∀ message, ¬ Pending first? front message) →
    ∀ call ∈ m.made, m.made = [call] ∧
      Recording.transport.refusal? m.stateBefore call = none ∧
      (∀ e, m.result = .error e → e.kind ≠ .transport) ∧
      m.stateAfter = Recording.serve call (m.stateBefore.noting call)
  /-- An operation that makes no call leaves the transport as it was. -/
  kept : ∀ m ∈ passed, ∀ operation, m.turn.step = .operation operation → m.made = [] →
    m.stateAfter = m.stateBefore
  /-- An operation whose request cannot be built is one of these, and it fails by what keeps it from
  its request. -/
  stopped : ∀ m ∈ passed, ∀ operation e, m.turn.step = .operation operation →
    m.before.request? m.turn.type operation = some (.error e) →
    m.made = [] ∧ m.result = .error e ∧ m.stateAfter = m.stateBefore

namespace Client

/-- What is armed after turns is what is pending. -/
theorem failure?_iff_pending (turns : List (Turn Recording.Control)) (client : Client Recording)
    (message : String) :
    (takeAll Recording.transport Recording.Control.apply turns client).world.transport.failure? =
        some message ↔
      RecordedMoment.Pending client.world.transport.failure? (recorded turns client) message := by
  induction turns generalizing client with
  | nil =>
    refine ⟨fun h => .before h (List.forall_mem_nil _), ?_⟩
    rintro (⟨armed, -⟩ | ⟨front, m, back, split, -, -⟩)
    · exact armed
    · cases front <;> cases split
  | cons turn rest ih =>
    have hc := course_take client turn
    exact (ih _).trans (RecordedMoment.pending_cons hc.failure?_eq_some_iff).symm

theorem failsOnce_recorded (turns : List (Turn Recording.Control)) (client : Client Recording) :
    FailsOnce client.world.transport.failure? (recorded turns client) := by
  have hp : ∀ front m back, recorded turns client = front ++ m :: back → ∀ message,
      (m.stateBefore.failure? = some message ↔
        RecordedMoment.Pending client.world.transport.failure? front message) := by
    intro front m back hs message
    obtain ⟨earlier, turn, later, -, rfl, rfl⟩ := trace_split hs
    exact failure?_iff_pending earlier client message
  have hm : ∀ {front m back}, recorded turns client = front ++ m :: back → m.Course := fun hs =>
    course_of_mem (hs ▸ List.mem_append_right _ List.mem_cons_self)
  refine ⟨hp, ?_, ?_, ?_, ?_⟩
  · intro front m back hs message hpend call hcall
    have hf := (hp front m back hs message).2 hpend
    cases hm hs with
    | instructed _ _ made _ | quiet _ _ _ made _ _ =>
      rw [made] at hcall
      cases hcall
    | failed operation sent text step hc made armed result state =>
      rw [made] at hcall ⊢
      obtain rfl := List.mem_singleton.1 hcall
      obtain rfl := Option.some.inj (armed.symm.trans hf)
      exact ⟨rfl, result, state⟩
    | answered operation sent step hc made ready result state =>
      rw [ready] at hf
      cases hf
  · intro front m back hs hno call hcall
    have hf : m.stateBefore.failure? = none :=
      Option.eq_none_iff_forall_ne_some.2 fun message hf => hno message ((hp front m back hs message).1 hf)
    cases hm hs with
    | instructed _ _ made _ | quiet _ _ _ made _ _ =>
      rw [made] at hcall
      cases hcall
    | failed operation sent text step hc made armed result state =>
      rw [hf] at armed
      cases armed
    | answered operation sent step hc made ready result state =>
      rw [made] at hcall ⊢
      obtain rfl := List.mem_singleton.1 hcall
      refine ⟨rfl, ?_, fun e he => ?_, state⟩
      · rw [Recording.refusal?_eq, ready]
        rfl
      · rw [result] at he
        exact kind_ne_of_answered ready hc he
  · intro m hmem operation hstep hmade
    cases course_of_mem hmem with
    | instructed control step _ _ => cases hstep.symm.trans step
    | quiet _ _ _ _ _ state => exact state
    | failed _ sent _ _ _ made _ _ _ | answered _ sent _ _ made _ _ _ => cases made.symm.trans hmade
  · intro m hmem operation e hstep hr
    have hn := call?_of_request? hr
    cases course_of_mem hmem with
    | instructed control step _ _ => cases hstep.symm.trans step
    | quiet _ step call made result state =>
      cases hstep.symm.trans step
      exact ⟨made, result.trans (operate_of_refused Recording.transport hr), state⟩
    | failed _ _ _ step call _ _ _ _ | answered _ _ step call _ _ _ _ =>
      cases hstep.symm.trans step
      cases call.symm.trans hn

end Client
end DocWire
