import DocWire.Proofs.Client.SchemaGate
import DocWire.Proofs.Client.Sessions
import DocWire.Proofs.Paths

/-!
# What operations send

An operation sends one call or none. `Client.Sends` says when it sends one and what stands in it, by the
operation's arguments alone. Main statements: `call?_eq_some_iff_sends`, this is what the operation
does; `sends_or_unchanged`, and when it sends nothing the transport stays as it was.
-/
set_option autoImplicit false

namespace DocWire

/-! ## Payloads -/

namespace DocumentType
variable {α : Type} (type : DocumentType α)

/-- The schema lets paths through. -/
def Admits (paths : List String) : Prop := type.schemaFields = [] ∨ ∀ path ∈ paths, type.Covers path

/-- The payload of a filter: its text, when it has one and its paths pass. -/
def FilterPayload (filter : Filter) (bytes : ByteArray) : Prop :=
  ∃ text, filter.encode = .ok text ∧ (∀ paths, filter.paths = .ok paths → type.Admits paths) ∧
    bytes = text.toUTF8

/-- The payload of a read's filter; without a filter it is the empty object. -/
def ReadPayload (filter? : Option Filter) (bytes : ByteArray) : Prop :=
  match filter? with
  | none => bytes = "\x7b\x7d".toUTF8
  | some filter => type.FilterPayload filter bytes

/-- The payload of a projection, if there is a projection. -/
def ProjectionPayload (projection? : Option Projection) (bytes? : Option ByteArray) : Prop :=
  match projection? with
  | none => bytes? = none
  | some p =>
    ∃ text, p.encode = .ok text ∧ type.Admits p.included ∧ type.Admits p.excluded ∧
      bytes? = some text.toUTF8

/-- The payload of an update. -/
def UpdatePayload (update : Update) (bytes : ByteArray) : Prop :=
  ∃ text, update.encode = .ok text ∧ (∀ paths, update.paths = .ok paths → type.Admits paths) ∧
    bytes = text.toUTF8

/-- The paths of a key are those of the primary key, in any order. -/
def KeyMatches (key : Fields) : Prop :=
  ∃ paths, key.leafPaths = .ok paths ∧ paths.length = type.primaryKey.length ∧
    ∀ path ∈ type.primaryKey, path ∈ paths

variable {type}

theorem writeAll_eq_ok_iff {docs : List α} {documents : List ByteArray} :
    type.writeAll docs = .ok documents ↔
      (∀ doc ∈ docs, type.serializes doc = true) ∧ documents = docs.map type.encode := by
  induction docs generalizing documents with
  | nil => exact ⟨fun h => ⟨fun doc hd => absurd hd List.not_mem_nil, (Except.ok.inj h).symm⟩,
      fun h => congrArg Except.ok h.2.symm⟩
  | cons doc docs ih =>
    rw [List.forall_mem_cons, writeAll, bind_eq_ok_iff]
    constructor
    · rintro ⟨json, hj, h⟩
      obtain ⟨rest, hr, h⟩ := bind_eq_ok_iff.1 h
      obtain ⟨hs, rfl⟩ := ih.1 hr
      unfold value at hj
      split at hj
      · rename_i hd
        cases hj
        exact ⟨⟨hd, hs⟩, (Except.ok.inj h).symm⟩
      · cases hj
    · rintro ⟨⟨hd, hs⟩, rfl⟩
      refine ⟨type.toJson doc, if_pos hd, ?_⟩
      rw [ih.2 ⟨hs, rfl⟩]
      rfl

end DocumentType

namespace Collection
variable {α : Type} {c : Collection α}

theorem filterBytes_eq_ok_iff {filter : Filter} {bytes : ByteArray} :
    c.filterBytes filter = .ok bytes ↔ c.type.FilterPayload filter bytes := by
  constructor
  · intro h
    obtain ⟨paths, text, hp, hc, ht, rfl⟩ := filterBytes_eq_ok h
    refine ⟨text, ht, fun paths' hp' => ?_, rfl⟩
    obtain rfl := Except.ok.inj (hp.symm.trans hp')
    exact DocumentType.checkPaths_eq_ok_iff.1 hc
  · rintro ⟨text, ht, ha, rfl⟩
    obtain ⟨tree, -, hp⟩ := Filter.paths_of_encode ht
    have hc := DocumentType.checkPaths_eq_ok_iff.2 (ha _ hp)
    simp only [filterBytes, hp, hc, ht, bind_ok]

theorem optionalFilterBytes_eq_ok_iff {filter? : Option Filter} {bytes : ByteArray} :
    c.optionalFilterBytes filter? = .ok bytes ↔ c.type.ReadPayload filter? bytes := by
  cases filter? with
  | none => exact ⟨fun h => (Except.ok.inj h).symm, fun h => congrArg Except.ok h.symm⟩
  | some filter => exact filterBytes_eq_ok_iff

theorem projectionBytes_eq_ok_iff {projection? : Option Projection} {bytes? : Option ByteArray} :
    c.projectionBytes projection? = .ok bytes? ↔ c.type.ProjectionPayload projection? bytes? := by
  cases projection? with
  | none => exact ⟨fun h => (Except.ok.inj h).symm, fun h => congrArg Except.ok h.symm⟩
  | some p =>
    constructor
    · intro h
      obtain ⟨_, hi, h⟩ := bind_eq_ok_iff.1 h
      obtain ⟨_, he, h⟩ := bind_eq_ok_iff.1 h
      obtain ⟨text, ht, h⟩ := bind_eq_ok_iff.1 h
      exact ⟨text, ht, DocumentType.checkPaths_eq_ok_iff.1 hi, DocumentType.checkPaths_eq_ok_iff.1 he,
        (Except.ok.inj h).symm⟩
    · rintro ⟨text, ht, hi, he, rfl⟩
      have hi := DocumentType.checkPaths_eq_ok_iff.2 hi
      have he := DocumentType.checkPaths_eq_ok_iff.2 he
      simp only [projectionBytes, hi, he, ht, bind_ok]

theorem updateBytes_eq_ok_iff {update : Update} {bytes : ByteArray} :
    c.updateBytes update = .ok bytes ↔ c.type.UpdatePayload update bytes := by
  constructor
  · intro h
    obtain ⟨paths, hp, h⟩ := bind_eq_ok_iff.1 h
    obtain ⟨_, hc, h⟩ := bind_eq_ok_iff.1 h
    obtain ⟨text, ht, h⟩ := bind_eq_ok_iff.1 h
    refine ⟨text, ht, fun paths' hp' => ?_, (Except.ok.inj h).symm⟩
    obtain rfl := Except.ok.inj (hp.symm.trans hp')
    exact DocumentType.checkPaths_eq_ok_iff.1 hc
  · rintro ⟨text, ht, ha, rfl⟩
    obtain ⟨tree, -, paths, hp, -⟩ := Update.paths_of_encode ht
    have hc := DocumentType.checkPaths_eq_ok_iff.2 (ha _ hp)
    simp only [updateBytes, hp, hc, ht, bind_ok]

theorem keyPaths_eq_ok_iff {key : Fields} {paths : List String} :
    c.keyPaths key = .ok paths ↔
      key.leafPaths = .ok paths ∧ paths.length = c.type.primaryKey.length ∧
        ∀ path ∈ c.type.primaryKey, path ∈ paths := by
  have hall : ∀ paths : List String, c.type.primaryKey.all paths.contains = true ↔
      ∀ path ∈ c.type.primaryKey, path ∈ paths := by
    intro paths
    simp
  unfold keyPaths
  cases key.leafPaths with
  | error e => simp [bind_error]
  | ok found =>
    rw [bind_ok, Except.ok.injEq]
    by_cases hm : found.length = c.type.primaryKey.length ∧
        c.type.primaryKey.all found.contains = true
    · rw [if_pos hm, Except.ok.injEq]
      rw [hall] at hm
      exact ⟨fun h => ⟨h, h ▸ hm⟩, fun h => h.1⟩
    · rw [if_neg hm]
      rw [hall] at hm
      refine ⟨fun h => (by cases h), ?_⟩
      rintro ⟨rfl, h⟩
      exact absurd h hm

theorem exists_keyPaths_iff {key : Fields} :
    (∃ paths, c.keyPaths key = .ok paths) ↔ c.type.KeyMatches key :=
  exists_congr fun _ => keyPaths_eq_ok_iff

end Collection

/-! ## Operations -/

namespace Client
variable {σ α : Type}

/-- The token for a request: that of the session, which has to be one of the request's database. -/
def Lends (client : Client σ) (place : Place) (token? : Option SessionToken) : Prop :=
  match client.placeSession? place with
  | none => token? = none
  | some s => s.database = client.databaseName place.database? ∧ token? = some s.token

/-- When an operation sends a call, and what stands in it. -/
inductive Sends (client : Client σ) (type : DocumentType α) : Operation α → Call → Prop where
  | insertOne {place : Place} {doc : α} {token? : Option SessionToken} :
    type.serializes doc = true → client.Lends place token? →
      Sends client type (.insertOne place doc)
        (.insert ⟨client.databaseName place.database?, type.collection, [type.encode doc], token?⟩)
  | insertMany {place : Place} {docs : List α} {token? : Option SessionToken} :
    (∀ doc ∈ docs, type.serializes doc = true) → client.Lends place token? →
      Sends client type (.insertMany place docs)
        (.insert ⟨client.databaseName place.database?, type.collection, docs.map type.encode, token?⟩)
  | findMany {place : Place} {filter? : Option Filter} {projection? : Option Projection}
      {filter : ByteArray} {fields? : Option ByteArray} {token? : Option SessionToken} :
    type.ReadPayload filter? filter → type.ProjectionPayload projection? fields? →
      client.Lends place token? →
      Sends client type (.findMany place filter? projection?)
        (.read ⟨client.databaseName place.database?, type.collection, filter, fields?, none, none,
          token?⟩)
  | findOne {place : Place} {filter? : Option Filter} {projection? : Option Projection}
      {filter : ByteArray} {fields? : Option ByteArray} {token? : Option SessionToken} :
    type.ReadPayload filter? filter → type.ProjectionPayload projection? fields? →
      client.Lends place token? →
      Sends client type (.findOne place filter? projection?)
        (.read ⟨client.databaseName place.database?, type.collection, filter, fields?, some 1, none,
          token?⟩)
  | findByKey {place : Place} {key : Fields} {filter : ByteArray} {token? : Option SessionToken} :
    type.KeyMatches key → type.FilterPayload (.selector (.equals key)) filter →
      client.Lends place token? →
      Sends client type (.findByKey place key)
        (.read ⟨client.databaseName place.database?, type.collection, filter, none, some 1, none,
          token?⟩)
  | updateMany {place : Place} {given : Filter} {update : Update} {filter fields : ByteArray}
      {token? : Option SessionToken} :
    type.FilterPayload given filter → type.UpdatePayload update fields → client.Lends place token? →
      Sends client type (.updateMany place given update)
        (.update ⟨client.databaseName place.database?, type.collection, filter, fields, token?⟩)
  | deleteMany {place : Place} {given : Filter} {filter : ByteArray}
      {token? : Option SessionToken} :
    type.FilterPayload given filter → client.Lends place token? →
      Sends client type (.deleteMany place given)
        (.delete ⟨client.databaseName place.database?, type.collection, filter, token?⟩)
  | openCursor {place : Place} {filter? : Option Filter} {projection? : Option Projection}
      {filter : ByteArray} {fields? : Option ByteArray} {token? : Option SessionToken} :
    type.ReadPayload filter? filter → type.ProjectionPayload projection? fields? →
      client.Lends place token? →
      Sends client type (.openCursor place filter? projection?)
        (.read ⟨client.databaseName place.database?, type.collection, filter, fields?, none, none,
          token?⟩)
  | start {database? : Option String} :
    Sends client type (.start database?) (.start (client.databaseName database?))
  | commit {index : Nat} {s : Session} : client.session? index = some s →
      Sends client type (.commit index) (.commit s.database s.token)
  | rollback {index : Nat} {s : Session} : client.session? index = some s →
      Sends client type (.rollback index) (.rollback s.database s.token)

variable {client : Client σ} {type : DocumentType α} {operation : Operation α} {call : Call}

theorem tokenOf_eq_ok_iff_lends {place : Place} {token? : Option SessionToken} :
    (client.collection type place).tokenOf (client.placeSession? place) = .ok token? ↔
      client.Lends place token? := by
  rw [Collection.tokenOf_eq_ok_iff, Lends]
  cases client.placeSession? place with
  | none => simp
  | some s => simp [collection]

theorem readRequest_sent_iff {place : Place} {filter? : Option Filter}
    {projection? : Option Projection} {limit? : Option Nat} :
    ((client.collection type place).readRequest filter? projection? limit?
        (client.placeSession? place)).toOption.map Call.read = some call ↔
      ∃ filter fields? token?, type.ReadPayload filter? filter ∧
        type.ProjectionPayload projection? fields? ∧ client.Lends place token? ∧
        call = .read ⟨client.databaseName place.database?, type.collection, filter, fields?, limit?,
          none, token?⟩ := by
  rw [sent_iff]
  simp only [Collection.readRequest_eq_ok_iff, Collection.optionalFilterBytes_eq_ok_iff,
    Collection.projectionBytes_eq_ok_iff, tokenOf_eq_ok_iff_lends]
  constructor
  · rintro ⟨_, ⟨filter, fields?, token?, hf, hp, ht, rfl⟩, rfl⟩
    exact ⟨filter, fields?, token?, hf, hp, ht, rfl⟩
  · rintro ⟨filter, fields?, token?, hf, hp, ht, rfl⟩
    exact ⟨_, ⟨filter, fields?, token?, hf, hp, ht, rfl⟩, rfl⟩

theorem insertRequest_sent_iff {place : Place} {docs : List α} :
    ((client.collection type place).insertRequest docs
        (client.placeSession? place)).toOption.map Call.insert = some call ↔
      ∃ token?, (∀ doc ∈ docs, type.serializes doc = true) ∧ client.Lends place token? ∧
        call = .insert ⟨client.databaseName place.database?, type.collection,
          docs.map type.encode, token?⟩ := by
  rw [sent_iff]
  simp only [Collection.insertRequest_eq_ok_iff, tokenOf_eq_ok_iff_lends]
  constructor
  · rintro ⟨_, ⟨documents, token?, hd, ht, rfl⟩, rfl⟩
    obtain ⟨hs, rfl⟩ := DocumentType.writeAll_eq_ok_iff.1 hd
    exact ⟨token?, hs, ht, rfl⟩
  · rintro ⟨token?, hs, ht, rfl⟩
    exact ⟨_, ⟨_, token?, DocumentType.writeAll_eq_ok_iff.2 ⟨hs, rfl⟩, ht, rfl⟩, rfl⟩

theorem lookupRequest_sent_iff {place : Place} {key : Fields} :
    ((client.collection type place).lookupRequest key
        (client.placeSession? place)).toOption.map Call.read = some call ↔
      ∃ filter token?, type.KeyMatches key ∧ type.FilterPayload (.selector (.equals key)) filter ∧
        client.Lends place token? ∧
        call = .read ⟨client.databaseName place.database?, type.collection, filter, none, some 1,
          none, token?⟩ := by
  have hk : type.KeyMatches key ↔ ∃ paths, (client.collection type place).keyPaths key = .ok paths :=
    (@Collection.exists_keyPaths_iff α (client.collection type place) key).symm
  rw [hk]
  unfold Collection.lookupRequest
  cases (client.collection type place).keyPaths key with
  | error e => simp [bind_error, Except.toOption]
  | ok paths =>
    refine readRequest_sent_iff.trans ⟨?_, ?_⟩
    · rintro ⟨filter, _, token?, hf, rfl, ht, rfl⟩
      exact ⟨filter, token?, ⟨paths, rfl⟩, hf, ht, rfl⟩
    · rintro ⟨filter, token?, -, hf, ht, rfl⟩
      exact ⟨filter, none, token?, hf, rfl, ht, rfl⟩

theorem updateRequest_sent_iff {place : Place} {given : Filter} {update : Update} :
    ((client.collection type place).updateRequest given update
        (client.placeSession? place)).toOption.map Call.update = some call ↔
      ∃ filter fields token?, type.FilterPayload given filter ∧ type.UpdatePayload update fields ∧
        client.Lends place token? ∧
        call = .update ⟨client.databaseName place.database?, type.collection, filter, fields,
          token?⟩ := by
  rw [sent_iff]
  simp only [Collection.updateRequest_eq_ok_iff, Collection.filterBytes_eq_ok_iff,
    Collection.updateBytes_eq_ok_iff, tokenOf_eq_ok_iff_lends]
  constructor
  · rintro ⟨_, ⟨filter, fields, token?, hf, hu, ht, rfl⟩, rfl⟩
    exact ⟨filter, fields, token?, hf, hu, ht, rfl⟩
  · rintro ⟨filter, fields, token?, hf, hu, ht, rfl⟩
    exact ⟨_, ⟨filter, fields, token?, hf, hu, ht, rfl⟩, rfl⟩

theorem deleteRequest_sent_iff {place : Place} {given : Filter} :
    ((client.collection type place).deleteRequest given
        (client.placeSession? place)).toOption.map Call.delete = some call ↔
      ∃ filter token?, type.FilterPayload given filter ∧ client.Lends place token? ∧
        call = .delete ⟨client.databaseName place.database?, type.collection, filter, token?⟩ := by
  rw [sent_iff]
  simp only [Collection.deleteRequest_eq_ok_iff, Collection.filterBytes_eq_ok_iff,
    tokenOf_eq_ok_iff_lends]
  constructor
  · rintro ⟨_, ⟨filter, token?, hf, ht, rfl⟩, rfl⟩
    exact ⟨filter, token?, hf, ht, rfl⟩
  · rintro ⟨filter, token?, hf, ht, rfl⟩
    exact ⟨_, ⟨filter, token?, hf, ht, rfl⟩, rfl⟩

/-- An operation makes the calls that it sends. -/
theorem call?_eq_some_iff_sends :
    client.call? type operation = some call ↔ client.Sends type operation call := by
  cases operation with
  | insertOne place doc =>
    refine insertRequest_sent_iff.trans ⟨?_, ?_⟩
    · rintro ⟨token?, hs, ht, rfl⟩
      exact .insertOne (hs doc List.mem_cons_self) ht
    · intro h
      cases h with
      | insertOne hs ht => exact ⟨_, List.forall_mem_singleton.2 hs, ht, rfl⟩
  | insertMany place docs =>
    refine insertRequest_sent_iff.trans ⟨?_, ?_⟩
    · rintro ⟨token?, hs, ht, rfl⟩
      exact .insertMany hs ht
    · intro h
      cases h with
      | insertMany hs ht => exact ⟨_, hs, ht, rfl⟩
  | findMany place filter? projection? =>
    refine readRequest_sent_iff.trans ⟨?_, ?_⟩
    · rintro ⟨filter, fields?, token?, hf, hp, ht, rfl⟩
      exact .findMany hf hp ht
    · intro h
      cases h with
      | findMany hf hp ht => exact ⟨_, _, _, hf, hp, ht, rfl⟩
  | findOne place filter? projection? =>
    refine readRequest_sent_iff.trans ⟨?_, ?_⟩
    · rintro ⟨filter, fields?, token?, hf, hp, ht, rfl⟩
      exact .findOne hf hp ht
    · intro h
      cases h with
      | findOne hf hp ht => exact ⟨_, _, _, hf, hp, ht, rfl⟩
  | openCursor place filter? projection? =>
    refine readRequest_sent_iff.trans ⟨?_, ?_⟩
    · rintro ⟨filter, fields?, token?, hf, hp, ht, rfl⟩
      exact .openCursor hf hp ht
    · intro h
      cases h with
      | openCursor hf hp ht => exact ⟨_, _, _, hf, hp, ht, rfl⟩
  | findByKey place key =>
    refine lookupRequest_sent_iff.trans ⟨?_, ?_⟩
    · rintro ⟨filter, token?, hk, hf, ht, rfl⟩
      exact .findByKey hk hf ht
    · intro h
      cases h with
      | findByKey hk hf ht => exact ⟨_, _, hk, hf, ht, rfl⟩
  | updateMany place filter update =>
    refine updateRequest_sent_iff.trans ⟨?_, ?_⟩
    · rintro ⟨filter, fields, token?, hf, hu, ht, rfl⟩
      exact .updateMany hf hu ht
    · intro h
      cases h with
      | updateMany hf hu ht => exact ⟨_, _, _, hf, hu, ht, rfl⟩
  | deleteMany place filter =>
    refine deleteRequest_sent_iff.trans ⟨?_, ?_⟩
    · rintro ⟨filter, token?, hf, ht, rfl⟩
      exact .deleteMany hf ht
    · intro h
      cases h with
      | deleteMany hf ht => exact ⟨_, _, hf, ht, rfl⟩
  | start database? =>
    constructor
    · rintro ⟨⟩
      exact .start
    · rintro ⟨⟩
      rfl
  | commit index =>
    refine Option.map_eq_some_iff.trans ⟨?_, ?_⟩
    · rintro ⟨s, hs, rfl⟩
      exact .commit hs
    · intro h
      cases h with
      | commit hs => exact ⟨_, hs, rfl⟩
  | rollback index =>
    refine Option.map_eq_some_iff.trans ⟨?_, ?_⟩
    · rintro ⟨s, hs, rfl⟩
      exact .rollback hs
    · intro h
      cases h with
      | rollback hs => exact ⟨_, hs, rfl⟩
  | advance _ | drain _ | drop _ => refine ⟨fun h => ?_, fun h => ?_⟩ <;> cases h

/-- An operation that sends a call sends no other, and the call comes to the end of the record of calls.
An operation that sends none leaves the transport as it was. -/
theorem sends_or_unchanged (client : Client Recording) (type : DocumentType α)
    (operation : Operation α) :
    let after := (client.operate Recording.transport type operation).2.world.transport
    (∃ call, client.Sends type operation call ∧ (∀ other, client.Sends type operation other →
        other = call) ∧ after.calls = client.world.transport.calls ++ [call]) ∨
      (∀ call, ¬ client.Sends type operation call) ∧ after = client.world.transport := by
  simp only [← call?_eq_some_iff_sends]
  cases hc : client.call? type operation with
  | none =>
    right
    refine ⟨fun call h => (by cases h), ?_⟩
    rw [transport_operate, hc]
    rfl
  | some call =>
    left
    refine ⟨call, rfl, fun other h => (Option.some.inj h).symm, ?_⟩
    have ha := calls_operate Recording.records client type operation
    rw [hc] at ha
    exact ha

end Client
end DocWire
