import DocWire.Proofs.Client.Trace
import DocWire.Proofs.Document.Schema
import DocWire.Proofs.Filter.Payload
import DocWire.Proofs.Projection.Payload
import DocWire.Proofs.Update.Payload

/-!
# The schema gate

A document type with schema fields lets no other path out: whatever a client does with its documents,
the payloads that it sends mention paths that the schema covers and no others. Main statement:
`run_mentionsOnly`.
-/
set_option autoImplicit false

namespace DocWire

/-! ## Payloads of a collection -/

namespace Collection
variable {α : Type} {c : Collection α}

theorem everything_eq : everything = (Json.object []).text.toUTF8 := rfl

theorem filterBytes_covered (hs : c.type.schemaFields ≠ []) {filter : Filter} {bytes : ByteArray}
    (h : c.filterBytes filter = .ok bytes) :
    Json.Payload (fun json => ∀ path ∈ json.filterPaths, c.type.Covers path) bytes := by
  obtain ⟨paths, text, hp, hc, ht, rfl⟩ := filterBytes_eq_ok h
  refine Filter.payload_of_encode ht fun json hj => ?_
  rw [Filter.paths_of_wire hj] at hp
  cases hp
  exact DocumentType.covers_of_checkPaths hs hc

theorem optionalFilterBytes_covered (hs : c.type.schemaFields ≠ []) {filter? : Option Filter}
    {bytes : ByteArray} (h : c.optionalFilterBytes filter? = .ok bytes) :
    Json.Payload (fun json => ∀ path ∈ json.filterPaths, c.type.Covers path) bytes := by
  cases filter? with
  | none =>
    cases h
    rw [everything_eq]
    exact Json.payload_text trivial fun path hp => absurd hp List.not_mem_nil
  | some filter => exact filterBytes_covered hs h

theorem projectionBytes_covered (hs : c.type.schemaFields ≠ []) {projection? : Option Projection}
    {bytes? : Option ByteArray} (h : c.projectionBytes projection? = .ok bytes?) :
    ∀ bytes ∈ bytes?,
      Json.Payload (fun json => ∀ path ∈ json.projectionPaths, c.type.Covers path) bytes := by
  cases projection? with
  | none =>
    cases h
    exact fun bytes hb => absurd hb (Option.not_mem_none bytes)
  | some p =>
    obtain ⟨_, hi, h⟩ := bind_eq_ok_iff.1 h
    obtain ⟨_, he, h⟩ := bind_eq_ok_iff.1 h
    obtain ⟨text, ht, h⟩ := bind_eq_ok_iff.1 h
    cases h
    rintro bytes ⟨⟩
    refine Projection.payload_of_encode ht fun json hj name hn => ?_
    rcases Projection.listed_of_wire hj name hn with hl | hl
    · exact DocumentType.covers_of_checkPaths hs hi name hl
    · exact DocumentType.covers_of_checkPaths hs he name hl

theorem updateBytes_covered (hs : c.type.schemaFields ≠ []) {update : Update} {bytes : ByteArray}
    (h : c.updateBytes update = .ok bytes) :
    Json.Payload (fun json => ∀ path ∈ json.updatePaths, c.type.Covers path) bytes := by
  obtain ⟨paths, hp, h⟩ := bind_eq_ok_iff.1 h
  obtain ⟨_, hc, h⟩ := bind_eq_ok_iff.1 h
  obtain ⟨text, ht, h⟩ := bind_eq_ok_iff.1 h
  cases h
  refine Update.payload_of_encode ht fun json hj path hm => ?_
  obtain ⟨others, ho, hperm⟩ := Update.paths_of_wire hj
  rw [ho] at hp
  cases hp
  exact DocumentType.covers_of_checkPaths hs hc path (hperm.mem_iff.2 hm)

end Collection

/-! ## Calls -/

/-- The payloads of a call mention paths of a kind only: its filter compares no others, its update
changes no others, and its projection names no others. -/
def Call.MentionsOnly (known : String → Prop) : Call → Prop
  | .read request =>
    Json.Payload (fun json => ∀ path ∈ json.filterPaths, known path) request.filter ∧
      ∀ fields ∈ request.fields?,
        Json.Payload (fun json => ∀ path ∈ json.projectionPaths, known path) fields
  | .update request =>
    Json.Payload (fun json => ∀ path ∈ json.filterPaths, known path) request.filter ∧
      Json.Payload (fun json => ∀ path ∈ json.updatePaths, known path) request.fields
  | .delete request => Json.Payload (fun json => ∀ path ∈ json.filterPaths, known path) request.filter
  | _ => True

namespace Client
variable {σ α κ : Type}

theorem call?_mentionsOnly {client : Client σ} {type : DocumentType α} {operation : Operation α}
    {call : Call} (hs : type.schemaFields ≠ []) (h : client.call? type operation = some call) :
    call.MentionsOnly type.Covers := by
  cases call with
  | read request =>
    obtain ⟨place, projection?, limit?, hr⟩ := call?_eq_read h
    obtain ⟨filter, fields?, token?, hf, hp, -, rfl⟩ := Collection.readRequest_eq_ok_iff.1 hr
    exact ⟨Collection.optionalFilterBytes_covered hs hf, Collection.projectionBytes_covered hs hp⟩
  | update request =>
    obtain ⟨place, filter, update, -, hr⟩ := call?_eq_update h
    obtain ⟨bytes, fields, token?, hf, hu, -, rfl⟩ := Collection.updateRequest_eq_ok_iff.1 hr
    exact ⟨Collection.filterBytes_covered hs hf, Collection.updateBytes_covered hs hu⟩
  | delete request =>
    obtain ⟨place, filter, -, hr⟩ := call?_eq_delete h
    obtain ⟨bytes, token?, hf, -, rfl⟩ := Collection.deleteRequest_eq_ok_iff.1 hr
    exact Collection.filterBytes_covered hs hf
  | insert _ | start _ | commit _ _ | rollback _ _ => trivial

/-- Whatever a client does with the documents of a type that has schema fields, every request that
it sends from then on mentions paths that the schema covers, and no others. -/
theorem run_mentionsOnly {type : DocumentType α} (hs : type.schemaFields ≠ [])
    (steps : List (Step α Recording.Control)) (client : Client Recording) :
    ∃ sent, (run Recording.transport Recording.Control.apply type steps client).2.world.transport.calls =
        client.world.transport.calls ++ sent ∧
      ∀ call ∈ sent, call.MentionsOnly type.Covers := by
  refine ⟨_, calls_run Recording.records Recording.calls_apply type steps client, ?_⟩
  intro call hc
  obtain ⟨entry, he, hc⟩ := List.mem_flatMap.1 hc
  refine forall_history Recording.records Recording.calls_apply type
    (P := fun _ call => call.MentionsOnly type.Covers) ?_ steps client entry he call hc
  intro client step call hc
  cases step with
  | operation operation => exact call?_mentionsOnly hs hc
  | control instruction => cases hc

/-- A read, an update and a deletion go out; a deletion by a path that is not declared does not. -/
theorem run_mentionsOnly_accounts :
    let type := DocumentType.anyJson "accounts" ["id", "owner.name", "balance"] ["id"]
    let place : Place := ⟨none, none⟩
    let owner := Filter.selector ⟨.eq, [("owner", .object [("name", .string "alice")])]⟩
    let either := Filter.logical (.ofSelectors .or [⟨.gt, [("balance.cents", .int 5)]⟩])
    let steps : List (Step Json Recording.Control) :=
      [.operation (.findMany place (some either) (some ⟨["owner"], []⟩)),
        .control (.armFailure "down"),
        .operation (.updateMany place owner ⟨[], ["owner.name.last"], [("balance", .int 1)], [], [], []⟩),
        .operation (.deleteMany place (.selector ⟨.eq, [("ownr", .null)]⟩)),
        .operation (.deleteMany place owner)]
    let client : Client Recording := ⟨.defaults, ⟨.counting "id", []⟩, [], []⟩
    let after := (run Recording.transport Recording.Control.apply type steps client).2
    type.schemaFields ≠ [] ∧ after.world.transport.calls.length = 3 ∧
      ∃ sent, after.world.transport.calls = client.world.transport.calls ++ sent ∧
        ∀ call ∈ sent, call.MentionsOnly type.Covers :=
  ⟨List.cons_ne_nil _ _, rfl, run_mentionsOnly (List.cons_ne_nil _ _) _ _⟩

end Client
end DocWire
