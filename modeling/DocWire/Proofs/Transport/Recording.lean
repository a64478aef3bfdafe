import DocWire.Proofs.Client.Calls

/-!
# What a recording transport makes of a call

Every call is put on record first. A failure that was armed then takes the place of the answer and of
all that answering does; otherwise the call is answered. Main statements: `deliver_of_failure` and
`deliver_of_ready`, the state after a call; `sendAll_of_room`, a channel with room takes all that is
sent; `refusal?_eq`, the armed failure is the only error that a call is answered with; `insert_of_ready`,
the keys of an insertion; and `read_of_ready`, the documents of a read.
-/
set_option autoImplicit false

namespace DocWire

/-- The error with which a transport answers a call, if it does. -/
def Transport.refusal? {σ : Type} (t : Transport σ) (s : σ) : Call → Option Failure
  | .insert request => errorOf? (t.insert request s).1
  | .read request => errorOf? (t.read request s).1
  | .update request => errorOf? (t.update request s).1
  | .delete request => errorOf? (t.delete request s).1
  | .start database => errorOf? (t.start database s).1
  | .commit database token => errorOf? (t.commit database token s).1
  | .rollback database token => errorOf? (t.rollback database token s).1

namespace Recording

def noting (call : Call) (r : Recording) : Recording := { r with calls := r.calls ++ [call] }

/-- What answering a call uses up. -/
def serve : Call → Recording → Recording
  | .insert request, r => { r with nextKey := r.nextKey + UInt64.ofNat request.documents.length }
  | .read _, r => { r with reads := r.reads.tail }
  | .start _, r => { r with started := r.started + 1 }
  | _, r => r

/-! ## Keys and batches -/

def numbers (count : Nat) (r : Recording) : List UInt64 :=
  (List.range count).map fun i => r.nextKey + UInt64.ofNat i

@[simp] theorem length_numbers (count : Nat) (r : Recording) : (r.numbers count).length = count := by
  rw [numbers, List.length_map, List.length_range]

theorem add_one_add_ofNat (n : UInt64) (i : Nat) :
    n + 1 + UInt64.ofNat i = n + UInt64.ofNat (i + 1) := by
  rw [UInt64.ofNat_add, UInt64.add_assoc, UInt64.add_comm 1]
  rfl

theorem numbers_succ (count : Nat) (r : Recording) :
    r.numbers (count + 1) = r.nextKey :: { r with nextKey := r.nextKey + 1 }.numbers count := by
  rw [numbers, numbers, List.range_succ_eq_map, List.map_cons, List.map_map]
  simp only [add_one_add_ofNat]
  rw [show UInt64.ofNat 0 = 0 from rfl, UInt64.add_zero]
  rfl

theorem takeKeys_eq (count : Nat) (r : Recording) :
    takeKeys count r =
      ((r.numbers count).map (keyPayload r.keyField),
        { r with nextKey := r.nextKey + UInt64.ofNat count }) := by
  induction count generalizing r with
  | zero => simp [takeKeys, numbers]
  | succ count ih =>
    rw [takeKeys, ih, numbers_succ, List.map_cons]
    simp only [add_one_add_ofNat]

/-- The documents of a batch that a read with a limit wants. -/
def upTo (limit? : Option Nat) (batch : List ByteArray) : List ByteArray :=
  match limit? with
  | none => batch
  | some limit => batch.take limit

/-- A channel takes all documents that it has room for. -/
theorem sendAll_of_room (channels : Channels) {capacity : Nat} {docs : List ByteArray}
    {held : DocumentStream} (h : held.length + docs.length ≤ capacity) :
    sendAll channels capacity docs held = .ok (held ++ docs.map .ok) := by
  induction docs generalizing held with
  | nil => rw [sendAll, List.map_nil, List.append_nil]
  | cons doc rest ih =>
    rw [List.length_cons] at h
    have hone : channels.trySend capacity held (.ok doc) = .ok (held ++ [.ok doc]) :=
      channels.trySend_of_room capacity held (.ok doc) (by omega)
    have hrest : sendAll channels capacity rest (held ++ [.ok doc]) =
        .ok (held ++ [.ok doc] ++ rest.map .ok) := by
      refine ih ?_
      rw [List.length_append, List.length_singleton]
      omega
    rw [List.append_assoc] at hrest
    rw [sendAll, hone]
    exact hrest

/-- A read uses up the oldest batch, whatever it is cut to. The channel is made for the batch, so that
nothing in it is refused. -/
theorem takeBatch_eq (limit? : Option Nat) (r : Recording) :
    takeBatch limit? r =
      (.ok ((upTo limit? (r.reads.headD [])).map .ok), { r with reads := r.reads.tail }) := by
  have hroom : ∀ batch : List ByteArray, sendAll r.channels (max batch.length 1) batch [] =
      .ok (batch.map .ok) := fun batch =>
    sendAll_of_room r.channels (by rw [List.length_nil, Nat.zero_add]; exact Nat.le_max_left ..)
  cases limit? with
  | none => exact congrArg (fun sent => (sent, { r with reads := r.reads.tail })) (hroom _)
  | some limit => exact congrArg (fun sent => (sent, { r with reads := r.reads.tail })) (hroom _)

/-! ## Calls -/

theorem record_of_failure {r : Recording} {message : String} (h : r.failure? = some message)
    (call : Call) :
    r.record call = (.error (.transport (.failed message)), { r.noting call with failure? := none }) := by
  unfold record noting
  simp only [h]

theorem record_of_ready {r : Recording} (h : r.failure? = none) (call : Call) :
    r.record call = (.ok (), r.noting call) := by
  unfold record noting
  simp only [h]

theorem respond_of_failure {α : Type} {r : Recording} {message : String}
    (h : r.failure? = some message) (call : Call)
    (answer : Recording → Except Failure α × Recording) :
    respond call answer r =
      (.error (.transport (.failed message)), { r.noting call with failure? := none }) := by
  unfold respond
  rw [record_of_failure h]

theorem respond_of_ready {α : Type} {r : Recording} (h : r.failure? = none) (call : Call)
    (answer : Recording → Except Failure α × Recording) :
    respond call answer r = answer (r.noting call) := by
  unfold respond
  rw [record_of_ready h]

/-- An armed failure leaves everything as it was but for the record of the call and itself. -/
theorem deliver_of_failure {r : Recording} {message : String} (h : r.failure? = some message)
    (call : Call) : transport.deliver call r = { r.noting call with failure? := none } := by
  cases call with
  | insert _ | read _ | update _ | delete _ | start _ =>
    exact congrArg Prod.snd (respond_of_failure h _ _)
  | commit _ _ | rollback _ _ => exact congrArg Prod.snd (record_of_failure h _)

theorem deliver_of_ready {r : Recording} (h : r.failure? = none) (call : Call) :
    transport.deliver call r = serve call (r.noting call) := by
  cases call with
  | insert request =>
    refine (congrArg Prod.snd (respond_of_ready h _ _)).trans ?_
    rw [takeKeys_eq]
    rfl
  | read request =>
    have hr := respond_of_ready h (.read request) (takeBatch request.limit?)
    rw [takeBatch_eq] at hr
    exact congrArg Prod.snd hr
  | update _ | delete _ | start _ => exact congrArg Prod.snd (respond_of_ready h _ _)
  | commit _ _ | rollback _ _ => exact congrArg Prod.snd (record_of_ready h _)

/-- A call fails by the armed failure, and by nothing else. -/
theorem refusal?_eq (r : Recording) (call : Call) :
    transport.refusal? r call = r.failure?.map fun message => .transport (.failed message) := by
  cases h : r.failure? with
  | none =>
    cases call with
    | read request =>
      have hr := respond_of_ready h (.read request) (takeBatch request.limit?)
      rw [takeBatch_eq] at hr
      exact congrArg (fun result => errorOf? (Prod.fst result)) hr
    | insert _ | update _ | delete _ | start _ =>
      exact congrArg (fun result => errorOf? (Prod.fst result)) (respond_of_ready h _ _)
    | commit _ _ | rollback _ _ =>
      exact congrArg (fun result => errorOf? (Prod.fst result)) (record_of_ready h _)
  | some message =>
    cases call with
    | insert _ | read _ | update _ | delete _ | start _ =>
      exact congrArg (fun result => errorOf? (Prod.fst result)) (respond_of_failure h _ _)
    | commit _ _ | rollback _ _ =>
      exact congrArg (fun result => errorOf? (Prod.fst result)) (record_of_failure h _)

/-! ## Answers -/

theorem insert_of_ready {r : Recording} (h : r.failure? = none) (request : InsertRequest) :
    (transport.insert request r).1 =
      .ok ((r.numbers request.documents.length).map (keyPayload r.keyField)) := by
  refine (congrArg Prod.fst (respond_of_ready h _ _)).trans ?_
  rw [takeKeys_eq]
  rfl

theorem start_of_ready {r : Recording} (h : r.failure? = none) (database : String) :
    (transport.start database r).1 = .ok ⟨r.ids r.started, "recording"⟩ :=
  congrArg Prod.fst (respond_of_ready h _ _)

theorem read_of_ready {r : Recording} (h : r.failure? = none) (request : ReadRequest) :
    (transport.read request r).1 = .ok ((upTo request.limit? (r.reads.headD [])).map .ok) := by
  have hr := respond_of_ready h (.read request) (takeBatch request.limit?)
  rw [takeBatch_eq] at hr
  exact congrArg Prod.fst hr

end Recording
end DocWire
