import DocWire.Proofs.Client.Trace
import DocWire.Proofs.Filter.Payload

/-!
# Requests that match everything

A request touches every document only when its operation was given no filter, and only to read them.
A payload made from a filter has a condition in each of its parts, at every depth. Main statement:
`run_targets`.
-/
set_option autoImplicit false

namespace DocWire

/-! ## Payloads -/

/-- A payload does not match everything, and has a condition in each of its parts. -/
def Targeted (bytes : ByteArray) : Prop :=
  bytes ≠ Collection.everything ∧ Json.Payload Json.Targeted bytes

namespace Collection

theorem reads_everything : Json.ReadsBytes everything (.object []) := by
  have hl : (Json.object []).Lexical := trivial
  exact (Json.readsBytes_toUTF8_iff _ _).2 ((Json.reads_text_iff hl _).2 rfl)

theorem ne_everything_of_payload {bytes : ByteArray} (h : Json.Payload Json.Targeted bytes) :
    bytes ≠ everything := by
  rintro rfl
  obtain ⟨json, hr, ht⟩ := h
  exact ht.ne_empty ((hr _).1 reads_everything).symm

theorem targeted_of_filterBytes {α : Type} {c : Collection α} {filter : Filter} {bytes : ByteArray}
    (h : c.filterBytes filter = .ok bytes) : Targeted bytes := by
  obtain ⟨paths, text, -, -, ht, rfl⟩ := filterBytes_eq_ok h
  have hp : Json.Payload Json.Targeted text.toUTF8 :=
    Filter.payload_of_encode ht fun json hj => Filter.targeted_of_wire hj
  exact ⟨ne_everything_of_payload hp, hp⟩

end Collection

/-! ## Calls -/

/-- The filter of a call matches everything only in a read for which no filter was given. -/
def Call.Targets (given? : Option Filter) : Call → Prop
  | .read request =>
    match given? with
    | none => request.filter = Collection.everything
    | some _ => Targeted request.filter
  | .update request => Targeted request.filter
  | .delete request => Targeted request.filter
  | _ => True

/-- The filter that a step is given, if it is given one. -/
def Step.filter? {α κ : Type} : Step α κ → Option Filter
  | .operation o => o.filter?
  | .control _ => none

namespace Client
variable {σ α κ : Type}

theorem call?_targets {client : Client σ} {type : DocumentType α} {operation : Operation α}
    {call : Call} (h : client.call? type operation = some call) : call.Targets operation.filter? := by
  cases call with
  | read request =>
    obtain ⟨place, projection?, limit?, hr⟩ := call?_eq_read h
    obtain ⟨bytes, fields?, token?, hf, -, -, rfl⟩ := Collection.readRequest_eq_ok_iff.1 hr
    unfold Call.Targets
    cases hg : operation.filter? with
    | none =>
      rw [hg] at hf
      cases hf
      rfl
    | some filter =>
      rw [hg] at hf
      exact Collection.targeted_of_filterBytes hf
  | update request =>
    obtain ⟨place, filter, update, -, hr⟩ := call?_eq_update h
    obtain ⟨bytes, fields, token?, hf, -, -, rfl⟩ := Collection.updateRequest_eq_ok_iff.1 hr
    exact Collection.targeted_of_filterBytes hf
  | delete request =>
    obtain ⟨place, filter, -, hr⟩ := call?_eq_delete h
    obtain ⟨bytes, token?, hf, -, rfl⟩ := Collection.deleteRequest_eq_ok_iff.1 hr
    exact Collection.targeted_of_filterBytes hf
  | insert _ | start _ | commit _ _ | rollback _ _ => trivial

/-- What a run adds to the record of calls are the calls of its steps. None of these matches
everything, but for the reads of steps that were given no filter. -/
theorem run_targets (type : DocumentType α) (steps : List (Step α Recording.Control))
    (client : Client Recording) :
    let entries := history Recording.transport Recording.Control.apply Recording.calls type steps client
    (run Recording.transport Recording.Control.apply type steps client).2.world.transport.calls =
        client.world.transport.calls ++ entries.flatMap Prod.snd ∧
      ∀ entry ∈ entries, ∀ call ∈ entry.2, call.Targets entry.1.filter? := by
  refine ⟨calls_run Recording.records Recording.calls_apply type steps client, ?_⟩
  refine forall_history Recording.records Recording.calls_apply type
    (P := fun step call => call.Targets step.filter?) ?_ steps client
  intro client step call hc
  cases step with
  | operation operation => exact call?_targets hc
  | control instruction => cases hc

end Client
end DocWire
