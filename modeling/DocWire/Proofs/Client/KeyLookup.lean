import DocWire.Proofs.Client.Sending
import DocWire.Proofs.Document.Flattening
import DocWire.Proofs.Filter.Domain

/-!
# Lookups by key

A lookup asks for the one document that has the given key. It is sent only for a key that names the
fields of the primary key, no fewer and no others, in whatever order and spelling; any other key is
refused before a transport or a log hears of it. What is compared are as many paths as there are in the
primary key, and that each of these is among them: where no path is declared twice, nothing else can be
there then. Main statement: `findByKey_names_primaryKey`.
-/
set_option autoImplicit false

namespace DocWire

/-! ## Keys -/

namespace Fields
variable {fields : Fields} {paths : List String}

/-- The paths of a field map are these and no others, however it nests: it can be spelled as leaves,
and its leaves stand at these paths. -/
structure NamesExactly (fields : Fields) (paths : List String) : Prop where
  spellable : fields.Spellable
  mem_iff : ∀ path, path ∈ paths ↔
    ∃ position names value, fields.LeafAt position names value ∧ ".".intercalate names = path

theorem mem_dotted_iff {leaf : String × Value} :
    leaf ∈ fields.dotted ↔
      ∃ position names, fields.LeafAt position names leaf.2 ∧ ".".intercalate names = leaf.1 := by
  rw [dotted_eq_spots, List.mem_map]
  constructor
  · rintro ⟨spot, hs, rfl⟩
    exact ⟨spot.position, spot.names, (Value.mem_spots_iff _ _).1 hs, rfl⟩
  · rintro ⟨position, names, hl, hp⟩
    exact ⟨⟨position, names, leaf.2⟩, (Value.mem_spots_iff _ _).2 hl, Prod.ext hp rfl⟩

theorem mem_keys_dotted_iff {path : String} :
    path ∈ fields.dotted.keys ↔
      ∃ position names value, fields.LeafAt position names value ∧ ".".intercalate names = path := by
  rw [Entries.keys, List.mem_map]
  constructor
  · rintro ⟨leaf, hl, rfl⟩
    obtain ⟨position, names, h⟩ := mem_dotted_iff.1 hl
    exact ⟨position, names, leaf.2, h⟩
  · rintro ⟨position, names, value, h⟩
    exact ⟨(path, value), mem_dotted_iff.2 ⟨position, names, h⟩, rfl⟩

theorem leafPaths_of_wellShaped (h : fields.WellShaped) : fields.leafPaths = .ok fields.dotted.keys := by
  rw [leafPaths, leaves_eq_ok_iff.2 ⟨h, rfl⟩]
  rfl

/-- Where no path is listed twice, the paths of the leaves are the listed ones in some order. -/
theorem namesExactly_iff_perm (hd : paths.Nodup) :
    fields.NamesExactly paths ↔ fields.WellShaped ∧ fields.dotted.keys.Perm paths := by
  constructor
  · intro h
    have hw := (wellShaped_iff fields).2 h.spellable
    refine ⟨hw, (List.perm_ext_iff_of_nodup hw.distinct hd).2 fun path => ?_⟩
    rw [mem_keys_dotted_iff, h.mem_iff]
  · rintro ⟨hw, hp⟩
    refine ⟨(wellShaped_iff fields).1 hw, fun path => ?_⟩
    rw [← mem_keys_dotted_iff, hp.mem_iff]

theorem NamesExactly.ne_nil_iff (h : fields.NamesExactly paths) : fields ≠ [] ↔ paths ≠ [] := by
  have hw := (wellShaped_iff fields).2 h.spellable
  have hempty : fields.dotted = [] ↔ paths = [] := by
    rw [← List.map_eq_nil_iff (f := Prod.fst), List.eq_nil_iff_forall_not_mem,
      List.eq_nil_iff_forall_not_mem]
    exact forall_congr' fun path => not_congr (mem_keys_dotted_iff.trans (h.mem_iff path).symm)
  rw [ne_eq paths, ← hempty]
  constructor
  · exact fun hne => leaves_ne_nil hne (leaves_eq_ok_iff.2 ⟨hw, rfl⟩)
  · rintro hne rfl
    exact hne rfl

end Fields

namespace DocumentType
variable {α : Type} {type : DocumentType α}

theorem admits_congr {paths others : List String} (h : ∀ path, path ∈ paths ↔ path ∈ others) :
    type.Admits paths ↔ type.Admits others :=
  or_congr_right (forall_congr' fun path => imp_congr_left (h path))

/-- A key is accepted that has as many paths as the primary key and all of those. There is no place for
others. -/
theorem keyMatches_iff_namesExactly (hd : type.primaryKey.Nodup) (key : Fields) :
    type.KeyMatches key ↔ key.NamesExactly type.primaryKey := by
  rw [Fields.namesExactly_iff_perm hd]
  constructor
  · rintro ⟨paths, hp, hlen, hmem⟩
    obtain ⟨leaves, hl, hp⟩ := bind_eq_ok_iff.1 hp
    cases hp
    obtain ⟨hw, rfl⟩ := Fields.leaves_eq_ok_iff.1 hl
    have hsub : type.primaryKey.Subperm key.dotted.keys := List.subperm_of_subset hd hmem
    exact ⟨hw, (hsub.perm_of_length_le hlen.le).symm⟩
  · rintro ⟨hw, hp⟩
    exact ⟨_, Fields.leafPaths_of_wellShaped hw, hp.length_eq, fun path hm => hp.mem_iff.2 hm⟩

end DocumentType

/-! ## Filters -/

/-- The wire form of a key's filter: an object that has the paths of the primary key for its names, in
some order, and says of each what the key says. -/
inductive Json.LooksUp (key : Fields) (declared : List String) : Json → Prop
  | object {members : List (String × Json)} (hs : (Selector.equals key).Spells (.object members))
      (hk : (Entries.keys members).Perm declared) : Json.LooksUp key declared (.object members)

theorem Selector.looksUp_of_wire {key : Fields} {declared : List String} {json : Json}
    (hk : key.dotted.keys.Perm declared) (h : (Selector.equals key).wire = .ok json) :
    json.LooksUp key declared := by
  have hs := spells_of_wire h
  cases hs with
  | mk hl hm =>
    refine .object (.mk hl hm) ?_
    rw [(Comparison.members_of_leaves hm).2.2, (Fields.leaves_eq_ok_iff.1 hl).2]
    exact hk

namespace Collection
variable {σ α : Type} {t : Transport σ} {calls : σ → List Call} {c : Collection α} {key : Fields}
  {session? : Option Session}

/-! ## Requests -/

theorem kind_of_keyPaths {e : Failure} (h : c.keyPaths key = .error e) : e.kind = .filterEncoding := by
  rcases bind_eq_error_iff.1 h with h | ⟨paths, -, h⟩
  · rcases bind_eq_error_iff.1 h with h | ⟨leaves, -, ⟨⟩⟩
    exact Fields.kind_of_leaves h
  · split at h
    · cases h
    · cases h
      rfl

theorem lookupRequest_eq_ok_iff {request : ReadRequest} :
    c.lookupRequest key session? = .ok request ↔
      c.type.KeyMatches key ∧ ∃ filter, c.type.FilterPayload (.selector (.equals key)) filter ∧
        (∀ s ∈ session?, s.database = c.database) ∧
        request = ⟨c.database, c.type.collection, filter, none, some 1, none,
          session?.map Session.token⟩ := by
  rw [← exists_keyPaths_iff, lookupRequest, bind_eq_ok_iff, ← exists_and_right]
  refine exists_congr fun paths => and_congr_right fun _ => ?_
  rw [readRequest_eq_ok_iff]
  simp only [optionalFilterBytes_eq_ok_iff, tokenOf_eq_ok_iff]
  constructor
  · rintro ⟨filter, _, _, hf, ⟨⟩, ⟨hs, rfl⟩, rfl⟩
    exact ⟨filter, hf, hs, rfl⟩
  · rintro ⟨filter, hf, hs, rfl⟩
    exact ⟨filter, none, _, hf, rfl, ⟨hs, rfl⟩, rfl⟩

/-- A lookup adds its request to the calls, if it has one. -/
theorem calls_findByKey (ht : t.Records calls) (w : World σ) :
    calls ((c.findByKey t key session?).perform w).2.transport =
      calls w.transport ++ ((c.lookupRequest key session?).toOption.map Call.read).toList := by
  have heffect := congrArg Prod.snd (c.effect_findByKey t w key session?)
  have hstate : ((c.findByKey t key session?).perform w).2.transport =
      t.deliver? ((c.lookupRequest key session?).toOption.map .read) w.transport :=
    heffect.trans (Transport.state_exchange (fun request s => rfl) _ _ _)
  rw [hstate, ht.deliver?]

theorem calls_findByKey_eq_iff (ht : t.Records calls) (w : World σ) (request : ReadRequest) :
    calls ((c.findByKey t key session?).perform w).2.transport =
        calls w.transport ++ [.read request] ↔
      c.lookupRequest key session? = .ok request := by
  rw [calls_findByKey ht, List.append_cancel_left_eq]
  cases c.lookupRequest key session? <;> simp [Except.toOption]

/-- A key that names other fields than the primary key is refused on the spot. -/
theorem findByKey_refused (hd : c.type.primaryKey.Nodup)
    (hk : ¬ key.NamesExactly c.type.primaryKey) (w : World σ) :
    ∃ e, (c.findByKey t key session?).perform w = (.error e, w) ∧ e.kind = .filterEncoding := by
  have hnone : ¬ ∃ paths, c.keyPaths key = .ok paths := by
    rwa [exists_keyPaths_iff, DocumentType.keyMatches_iff_namesExactly hd]
  obtain ⟨e, he⟩ := exists_error_iff.2 hnone
  refine ⟨e, ?_, kind_of_keyPaths he⟩
  unfold findByKey
  rw [he]
  rfl

/-- When the filter of a key that names the primary key has a payload. -/
theorem exists_filterPayload_iff (hd : c.type.primaryKey.Nodup)
    (hk : key.NamesExactly c.type.primaryKey) :
    (∃ filter, c.type.FilterPayload (.selector (.equals key)) filter) ↔
      c.type.primaryKey ≠ [] ∧ c.type.Admits c.type.primaryKey ∧
        ∀ position names value, key.LeafAt position names value → value.Comparable := by
  obtain ⟨hw, hp⟩ := (Fields.namesExactly_iff_perm hd).1 hk
  have hpaths : (Filter.selector (.equals key)).paths = .ok key.dotted.keys :=
    Fields.leafPaths_of_wellShaped hw
  have hadmits := c.type.admits_congr fun path => hp.mem_iff (a := path)
  have hcomparable : (∀ leaf ∈ key.dotted, leaf.2.Comparable) ↔
      ∀ position names value, key.LeafAt position names value → value.Comparable := by
    constructor
    · exact fun h position names value hl =>
        h (_, value) (Fields.mem_dotted_iff.2 ⟨position, names, hl, rfl⟩)
    · intro h leaf hm
      obtain ⟨position, names, hl, -⟩ := Fields.mem_dotted_iff.1 hm
      exact h position names leaf.2 hl
  rw [← hk.ne_nil_iff, ← hadmits, ← hcomparable]
  constructor
  · rintro ⟨_, text, ht, ha, rfl⟩
    obtain ⟨json, hj, -⟩ := Filter.encode_eq_ok_iff.1 ht
    have hs := (Selector.wire_isOk_iff (.equals key)).1 ⟨json, hj⟩
    exact ⟨hs.fields_ne_nil, ha _ hpaths, hs.comparable⟩
  · rintro ⟨hne, ha, hc⟩
    obtain ⟨json, hj⟩ := (Selector.wire_isOk_iff (.equals key)).2 ⟨⟨hne, hw⟩, hc⟩
    refine ⟨_, json.text, Filter.encode_eq_ok_iff.2 ⟨json, hj, rfl⟩, fun paths h => ?_, rfl⟩
    cases hpaths.symm.trans h
    exact ha

/-- A lookup sends a single read or nothing. The read is for a key that names the fields of the primary
key exactly; its filter compares these fields and no others, and it asks for one document in full. It is
sent if this key can be compared, the schema admits its paths and the session is of the same database. A
key that names other fields is an encoding error, and neither the transport nor the log changes. -/
theorem findByKey_names_primaryKey (ht : t.Records calls) (hd : c.type.primaryKey.Nodup)
    (key : Fields) (session? : Option Session) (w : World σ) :
    let result := (c.findByKey t key session?).perform w
    (calls result.2.transport = calls w.transport ∨
      ∃ filter, calls result.2.transport = calls w.transport ++
          [.read ⟨c.database, c.type.collection, filter, none, some 1, none,
            session?.map Session.token⟩] ∧
        key.NamesExactly c.type.primaryKey ∧
        Json.Payload (Json.LooksUp key c.type.primaryKey) filter) ∧
    ((∃ request, calls result.2.transport = calls w.transport ++ [.read request]) ↔
      key.NamesExactly c.type.primaryKey ∧ c.type.primaryKey ≠ [] ∧
        c.type.Admits c.type.primaryKey ∧
        (∀ position names value, key.LeafAt position names value → value.Comparable) ∧
        ∀ s ∈ session?, s.database = c.database) ∧
    (¬ key.NamesExactly c.type.primaryKey →
      ∃ e, result = (.error e, w) ∧ e.kind = .filterEncoding) := by
  intro result
  have hkey := DocumentType.keyMatches_iff_namesExactly hd key
  refine ⟨?_, ?_, fun hk => findByKey_refused hd hk w⟩
  · cases hq : c.lookupRequest key session? with
    | error e =>
      refine .inl ((calls_findByKey ht w).trans ?_)
      rw [hq]
      exact List.append_nil _
    | ok request =>
      obtain ⟨hk, filter, hf, -, rfl⟩ := lookupRequest_eq_ok_iff.1 hq
      refine .inr ⟨filter, (calls_findByKey_eq_iff ht w _).2 hq, hkey.1 hk, ?_⟩
      obtain ⟨text, hencode, -, rfl⟩ := hf
      have hperm := ((Fields.namesExactly_iff_perm hd).1 (hkey.1 hk)).2
      exact Filter.payload_of_encode hencode fun json hj => Selector.looksUp_of_wire hperm hj
  · simp only [result, calls_findByKey_eq_iff ht, lookupRequest_eq_ok_iff, hkey]
    constructor
    · rintro ⟨_, hk, filter, hf, hs, -⟩
      obtain ⟨hne, ha, hc⟩ := (exists_filterPayload_iff hd hk).1 ⟨filter, hf⟩
      exact ⟨hk, hne, ha, hc, hs⟩
    · rintro ⟨hk, hne, ha, hc, hs⟩
      obtain ⟨filter, hf⟩ := (exists_filterPayload_iff hd hk).2 ⟨hne, ha, hc⟩
      exact ⟨_, hk, filter, hf, hs, rfl⟩

/-- A key of two fields below one object, one of them nested and one dotted, in the other order; and a
key that lacks one of them. -/
theorem findByKey_names_primaryKey_composite :
    let c : Collection Json := ⟨.anyJson "events" [] ["key.shard", "key.seq"], "main"⟩
    let key : Fields := [("key", .object [("seq", .int 7)]), ("key.shard", .string "eu")]
    let w : World Recording := ⟨.counting "id", []⟩
    c.type.primaryKey.Nodup ∧ key.NamesExactly c.type.primaryKey ∧
      (∃ filter, ((c.findByKey Recording.transport key none).perform w).2.transport.calls =
          [.read ⟨"main", "events", filter, none, some 1, none, none⟩] ∧
        Json.Payload (Json.LooksUp key c.type.primaryKey) filter) ∧
      ∃ e, (c.findByKey Recording.transport [("key.seq", .int 7)] none).perform w = (.error e, w) ∧
        e.kind = .filterEncoding := by
  intro c key w
  have hd : c.type.primaryKey.Nodup := by decide
  have hlen : ((c.findByKey Recording.transport key none).perform w).2.transport.calls.length = 1 := by
    decide +kernel
  obtain ⟨hsent, -, -⟩ := findByKey_names_primaryKey Recording.records hd key none w
  rcases hsent with hsame | ⟨filter, hcalls, hk, hp⟩
  · rw [hsame] at hlen
    cases hlen
  refine ⟨hd, hk, ⟨filter, hcalls, hp⟩, ?_⟩
  refine (findByKey_names_primaryKey Recording.records hd [("key.seq", .int 7)] none w).2.2 fun hbad => ?_
  have hperm := ((Fields.namesExactly_iff_perm hd).1 hbad).2
  exact absurd hperm.length_eq (by decide)

end Collection
end DocWire
