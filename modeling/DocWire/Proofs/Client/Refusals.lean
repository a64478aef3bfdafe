import DocWire.Proofs.Client.Conclusions

/-!
# Operations that fail in encoding

An operation that fails by an encoding error has sent nothing, unless the error is the reply's: either
the transport hands it over, or generated keys cannot be merged with the documents that they were
given to. Main statements: `calls_eq_iff_of_encodingError`, and `insertOne_sends_array`, a document
that is sent although no keys can be merged with it.
-/
set_option autoImplicit false

namespace DocWire

/-! ## What is made of a reply -/

namespace Collection
variable {α : Type}

theorem mergeAll_of_withKeys {type : DocumentType α} {docs : List α} {payloads : List ByteArray}
    {e : Failure} (h : withKeys type docs payloads = .error e) (he : e.arisesInEncoding = true) :
    payloads.length = docs.length ∧ mergeAll type docs payloads = .error e := by
  unfold withKeys at h
  split at h
  · rename_i hl
    exact ⟨hl, h⟩
  · cases h
    cases he

theorem lastInserted_ne_error {docs : List α} {e : Failure} (he : e.arisesInEncoding = true) :
    lastInserted docs ≠ .error e := by
  intro h
  unfold lastInserted at h
  split at h
  · cases h
  · cases h
    cases he

theorem found_ne_error {c : Collection α} {paths : List String} {doc? : Option α} {e : Failure}
    (he : e.arisesInEncoding = true) : c.found paths doc? ≠ .error e := by
  intro h
  unfold found at h
  split at h
  · cases h
  · cases h
    cases he

end Collection

namespace DocumentStream
variable {α : Type} {type : DocumentType α} {e : Failure}

/-- No document is read with an encoding error; one that turns up stands in the stream. -/
theorem eq_of_readItem {item : Except Failure ByteArray} (h : readItem type item = .error e)
    (he : e.arisesInEncoding = true) : item = .error e := by
  rcases bind_eq_error_iff.1 h with h | ⟨bytes, -, h⟩
  · exact h
  · unfold DocumentType.read at h
    cases hd : type.decode bytes with
    | error fault =>
      rw [hd] at h
      cases h
      cases he
    | ok doc =>
      rw [hd] at h
      cases h

theorem mem_of_collect {stream : DocumentStream} (h : collect type stream = .error e)
    (he : e.arisesInEncoding = true) : .error e ∈ stream := by
  rw [collect_eq_mapM] at h
  obtain ⟨i, item, hi, hr, -⟩ := mapM_eq_error_iff.1 h
  rw [← eq_of_readItem hr he]
  exact List.mem_of_getElem? hi

theorem mem_of_first {stream : DocumentStream} (h : first type stream = .error e)
    (he : e.arisesInEncoding = true) : .error e ∈ stream := by
  cases stream with
  | nil => cases h
  | cons item rest =>
    have hi : readItem type item = .error e := map_eq_error_iff.1 h
    rw [eq_of_readItem hi he]
    exact List.mem_cons_self ..

end DocumentStream

/-! ## Replies -/

/-- The documents that an operation inserts. -/
def Operation.docs {α : Type} : Operation α → List α
  | .insertOne _ doc => [doc]
  | .insertMany _ docs => docs
  | _ => []

/-- The reply to a call brings an error: the transport answers with it or puts it in the place of a
document, or it answers with keys that cannot be merged with the documents inserted. -/
def Call.ReplyFails {σ α : Type} (t : Transport σ) (s : σ) (type : DocumentType α) (docs : List α)
    (e : Failure) : Call → Prop
  | .insert request =>
    (t.insert request s).1 = .error e ∨ ∃ payloads, (t.insert request s).1 = .ok payloads ∧
      payloads.length = docs.length ∧ Collection.mergeAll type docs payloads = .error e
  | .read request =>
    (t.read request s).1 = .error e ∨
      ∃ stream, (t.read request s).1 = .ok stream ∧ .error e ∈ stream
  | .update request => (t.update request s).1 = .error e
  | .delete request => (t.delete request s).1 = .error e
  | .start database => (t.start database s).1 = .error e
  | .commit database token => (t.commit database token s).1 = .error e
  | .rollback database token => (t.rollback database token s).1 = .error e

/-! ## Operations -/

namespace Client
variable {σ α : Type} {client : Client σ} {e : Failure}

/-- An operation that made a call and failed by an encoding error has it from the reply. -/
theorem replyFails_of_error {t : Transport σ} {type : DocumentType α} {operation : Operation α}
    {call : Call} (hc : client.call? type operation = some call)
    (hr : (client.operate t type operation).1 = .error e) (he : e.arisesInEncoding = true) :
    call.ReplyFails t client.world.transport type operation.docs e := by
  obtain ⟨result, hresult, hconc⟩ := exists_concludes (t := t) hc
  rw [hresult] at hr
  cases hconc with
  | insertOne place doc request _ =>
    refine (bind_eq_error_iff.1 (map_eq_error_iff.1 hr)).imp_right ?_
    rintro ⟨payloads, hp, hf⟩
    -- A count that does not fit and a missing document are the transport's errors.
    rcases bind_eq_error_iff.1 hf with hw | ⟨docs, -, hl⟩
    · exact ⟨payloads, hp, Collection.mergeAll_of_withKeys hw he⟩
    · exact absurd hl (Collection.lastInserted_ne_error he)
  | insertMany place docs request _ =>
    refine (bind_eq_error_iff.1 (map_eq_error_iff.1 hr)).imp_right ?_
    rintro ⟨payloads, hp, hw⟩
    exact ⟨payloads, hp, Collection.mergeAll_of_withKeys hw he⟩
  | findMany place filter? projection? request =>
    refine (bind_eq_error_iff.1 (map_eq_error_iff.1 hr)).imp_right ?_
    rintro ⟨stream, hp, hf⟩
    exact ⟨stream, hp, DocumentStream.mem_of_collect hf he⟩
  | findOne place filter? projection? request =>
    refine (bind_eq_error_iff.1 (map_eq_error_iff.1 hr)).imp_right ?_
    rintro ⟨stream, hp, hf⟩
    exact ⟨stream, hp, DocumentStream.mem_of_first hf he⟩
  | findByKey place key request paths _ =>
    refine (bind_eq_error_iff.1 (map_eq_error_iff.1 hr)).imp_right ?_
    rintro ⟨stream, hp, hf⟩
    rcases bind_eq_error_iff.1 hf with hf | ⟨doc?, -, hf⟩
    · exact ⟨stream, hp, DocumentStream.mem_of_first hf he⟩
    · exact absurd hf (Collection.found_ne_error he)
  | openCursor place filter? projection? request => exact .inl (map_eq_error_iff.1 hr)
  | updateMany _ _ _ _ | deleteMany _ _ _ | start _ | commit _ _ _ | rollback _ _ _ =>
    exact map_eq_error_iff.1 hr

/-- An operation that fails by an encoding error has left the record of calls alone, unless it made a
call whose reply brought the error. -/
theorem calls_eq_iff_of_encodingError {t : Transport σ} {calls : σ → List Call} (h : t.Records calls)
    {type : DocumentType α} {operation : Operation α}
    (hr : (client.operate t type operation).1 = .error e) (he : e.arisesInEncoding = true) :
    calls (client.operate t type operation).2.world.transport = calls client.world.transport ↔
      ¬ ∃ call, client.call? type operation = some call ∧
        call.ReplyFails t client.world.transport type operation.docs e := by
  rw [calls_operate h]
  cases hc : client.call? type operation with
  | none => simp
  | some call =>
    have hf := replyFails_of_error hc hr he
    simp [hf]

/-- A document that is an array is inserted, and only then are its keys found to have no place. -/
theorem operate_insertOne_array :
    let client : Client Recording := ⟨.defaults, ⟨.counting "id", []⟩, [], []⟩
    let after := client.operate Recording.transport (.anyJson "things" [] ["id"])
      (.insertOne ⟨none, none⟩ (.array [.number "1"]))
    after.1 = .error (.value .documentNotObject) ∧ after.2.world.transport.calls.length = 1 :=
  ⟨errorOf?_eq_some_iff.1 (by decide +kernel), by decide +kernel⟩

theorem calls_eq_iff_of_encodingError_array :
    let type := DocumentType.anyJson "things" [] ["id"]
    let client : Client Recording := ⟨.defaults, ⟨.counting "id", []⟩, [], []⟩
    let operation := Operation.insertOne ⟨none, none⟩ (Json.array [.number "1"])
    let e := Failure.value .documentNotObject
    let after := client.operate Recording.transport type operation
    after.1 = .error e ∧ e.arisesInEncoding = true ∧
      (after.2.world.transport.calls = client.world.transport.calls ↔
        ¬ ∃ call, client.call? type operation = some call ∧
          call.ReplyFails Recording.transport client.world.transport type operation.docs e) :=
  ⟨operate_insertOne_array.1, rfl,
    calls_eq_iff_of_encodingError Recording.records operate_insertOne_array.1 rfl⟩

/-- An encoding error does not always mean that nothing was sent. -/
theorem insertOne_sends_array :
    ¬ ∀ (client : Client Recording) (doc : Json) (e : Failure),
      let after := client.operate Recording.transport (.anyJson "things" [] ["id"])
        (.insertOne ⟨none, none⟩ doc)
      after.1 = .error e → e.arisesInEncoding = true →
        after.2.world.transport.calls = client.world.transport.calls := by
  intro h
  have hc := h ⟨.defaults, ⟨.counting "id", []⟩, [], []⟩ (.array [.number "1"])
    (.value .documentNotObject) operate_insertOne_array.1 rfl
  have hl := congrArg List.length hc
  rw [operate_insertOne_array.2] at hl
  cases hl

end Client
end DocWire
