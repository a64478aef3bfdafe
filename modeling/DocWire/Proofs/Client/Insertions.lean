import DocWire.Proofs.Client.Sending
import DocWire.Proofs.Document.Merge
import DocWire.Transport.Scripted

/-!
# The answers to insertions

A transport can answer an insertion with any payloads. They are counted, and then each document has the
keys of the payload in its place merged into it. Main statements: `merge_eq_ok_iff`, what merging is;
`paired_withKeys`, what becomes of documents by payloads; `alone_insertOne`, a document is inserted as
the list of it is; and `insertMany_paired`, what becomes of insertions by any answer.
-/
set_option autoImplicit false

namespace DocWire

/-! ## One document -/

namespace DocumentType
variable {α : Type}

/-- The payload decodes as generated keys, the document is an object in which these can be placed, and
with them in it the object is read as the other document. -/
def Merges (type : DocumentType α) (doc : α) (payload : ByteArray) (merged : α) : Prop :=
  ∃ keys root placed, generatedKeys payload = .ok keys ∧ type.value doc = .ok (.object root) ∧
    mergeKeys keys root = .ok placed ∧ type.ofJson? (.object placed) = some merged

/-- What merging fails by: the payload does not decode, the document has no value or one that is no
object, the keys cannot be placed in it, or what comes of it is no document any more. -/
inductive Refuses (type : DocumentType α) (doc : α) (payload : ByteArray) : Failure → Prop
  | payload {e : Failure} (h : generatedKeys payload = .error e) : Refuses type doc payload e
  | value {keys : Fields} {e : Failure} (hk : generatedKeys payload = .ok keys)
      (h : type.value doc = .error e) : Refuses type doc payload e
  | shape {keys : Fields} {json : Json} (hk : generatedKeys payload = .ok keys)
      (hv : type.value doc = .ok json) (h : ∀ root, json ≠ .object root) :
      Refuses type doc payload (.value .documentNotObject)
  | placing {keys : Fields} {root : Entries Json} {e : Failure}
      (hk : generatedKeys payload = .ok keys) (hv : type.value doc = .ok (.object root))
      (h : mergeKeys keys root = .error e) : Refuses type doc payload e
  | reading {keys : Fields} {root placed : Entries Json} (hk : generatedKeys payload = .ok keys)
      (hv : type.value doc = .ok (.object root)) (hm : mergeKeys keys root = .ok placed)
      (h : type.ofJson? (.object placed) = none) : Refuses type doc payload (.json .malformed)

variable {type : DocumentType α} {doc merged : α} {payload : ByteArray} {e : Failure}

theorem merge_eq_ok_iff {keys : Fields} :
    type.merge doc keys = .ok merged ↔ ∃ root placed, type.value doc = .ok (.object root) ∧
      mergeKeys keys root = .ok placed ∧ type.ofJson? (.object placed) = some merged := by
  unfold merge
  constructor
  · intro h
    obtain ⟨json, hv, h⟩ := bind_eq_ok_iff.1 h
    cases json with
    | object root =>
      obtain ⟨placed, hm, h⟩ := bind_eq_ok_iff.1 h
      cases hj : type.ofJson? (.object placed) with
      | none =>
        rw [hj] at h
        cases h
      | some other =>
        rw [hj] at h
        cases h
        exact ⟨root, placed, hv, hm, hj⟩
    | null | bool _ | number _ | string _ | array _ => cases h
  · rintro ⟨root, placed, hv, hm, hj⟩
    simp only [hv, hm, hj, bind_ok]

theorem merges_iff :
    (generatedKeys payload >>= type.merge doc) = .ok merged ↔ type.Merges doc payload merged := by
  simp only [bind_eq_ok_iff, merge_eq_ok_iff, Merges, exists_and_left]

theorem refuses_iff :
    (generatedKeys payload >>= type.merge doc) = .error e ↔ type.Refuses doc payload e := by
  constructor
  · intro h
    rcases bind_eq_error_iff.1 h with h | ⟨keys, hk, h⟩
    · exact .payload h
    · unfold merge at h
      rcases bind_eq_error_iff.1 h with h | ⟨json, hv, h⟩
      · exact .value hk h
      · cases json with
        | object root =>
          rcases bind_eq_error_iff.1 h with h | ⟨placed, hm, h⟩
          · exact .placing hk hv h
          · cases hj : type.ofJson? (.object placed) with
            | none =>
              rw [hj] at h
              cases h
              exact .reading hk hv hm hj
            | some other =>
              rw [hj] at h
              cases h
        | null | bool _ | number _ | string _ | array _ =>
          cases h
          exact .shape hk hv fun root => Json.noConfusion
  · intro h
    cases h with
    | payload h => rw [h, bind_error]
    | value hk h => rw [hk, bind_ok, merge, h, bind_error]
    | @shape keys json hk hv h =>
      rw [hk, bind_ok, merge, hv, bind_ok]
      cases json with
      | object root => exact absurd rfl (h root)
      | null | bool _ | number _ | string _ | array _ => rfl
    | placing hk hv h =>
      rw [hk, bind_ok, merge, hv, bind_ok]
      simp only [h, bind_error]
    | reading hk hv hm h =>
      rw [hk, bind_ok, merge, hv, bind_ok]
      simp only [hm, bind_ok, h]

end DocumentType

/-! ## Documents and payloads -/

namespace Collection
variable {σ α : Type}

/-- A document and a payload in the same place, if there are both, merge. -/
def MergesAt (type : DocumentType α) (docs : List α) (payloads : List ByteArray) (i : Nat) : Prop :=
  ∀ doc payload, docs[i]? = some doc → payloads[i]? = some payload →
    ∃ merged, type.Merges doc payload merged

/-- Every document has the payload in its place merged into it, or the first that cannot is what the
result fails by; and it fails before that where the payloads are not as many as the documents. -/
structure Paired (type : DocumentType α) (docs : List α) (payloads : List ByteArray)
    (result : Except Failure (List α)) : Prop where
  succeeds : (∃ all, result = .ok all) ↔
    payloads.length = docs.length ∧ ∀ i, MergesAt type docs payloads i
  returned : ∀ all, result = .ok all → all.length = docs.length ∧
    ∀ (i : Nat) (doc : α) (payload : ByteArray), docs[i]? = some doc → payloads[i]? = some payload →
      ∃ merged, all[i]? = some merged ∧ type.Merges doc payload merged
  counted : payloads.length ≠ docs.length →
    result = .error (.transport (.keyCount payloads.length docs.length))
  first : payloads.length = docs.length → ∀ e, result = .error e ↔
    ∃ (i : Nat) (doc : α) (payload : ByteArray), docs[i]? = some doc ∧ payloads[i]? = some payload ∧
      type.Refuses doc payload e ∧ ∀ j < i, MergesAt type docs payloads j

section
variable {type : DocumentType α} {docs all : List α} {payloads : List ByteArray} {e : Failure}

theorem withKeys_eq_ok_iff :
    withKeys type docs payloads = .ok all ↔
      payloads.length = docs.length ∧ mergeAll type docs payloads = .ok all := by
  unfold withKeys
  split <;> simp [*]

theorem exists_mergeAll_eq_ok_iff :
    (∃ all, mergeAll type docs payloads = .ok all) ↔ ∀ i, MergesAt type docs payloads i := by
  rw [mergeAll_eq_mapM, exists_mapM_eq_ok_iff]
  simp only [Prod.forall, List.getElem?_zip_eq_some, and_imp, DocumentType.merges_iff, MergesAt]

theorem getElem?_of_mergeAll (h : mergeAll type docs payloads = .ok all) {i : Nat} {doc : α}
    {payload : ByteArray} (hd : docs[i]? = some doc) (hp : payloads[i]? = some payload) :
    ∃ merged, all[i]? = some merged ∧ type.Merges doc payload merged := by
  have hz : (docs.zip payloads)[i]? = some (doc, payload) := List.getElem?_zip_eq_some.2 ⟨hd, hp⟩
  rw [mergeAll_eq_mapM] at h
  obtain ⟨merged, hi, hm⟩ := getElem?_of_mapM h hz
  exact ⟨merged, hi, DocumentType.merges_iff.1 hm⟩

theorem mergeAll_eq_error_iff :
    mergeAll type docs payloads = .error e ↔
      ∃ (i : Nat) (doc : α) (payload : ByteArray), docs[i]? = some doc ∧
        payloads[i]? = some payload ∧ type.Refuses doc payload e ∧
        ∀ j < i, MergesAt type docs payloads j := by
  rw [mergeAll_eq_mapM, mapM_eq_error_iff]
  simp only [Prod.exists, Prod.forall, List.getElem?_zip_eq_some, and_imp, and_assoc,
    DocumentType.merges_iff, DocumentType.refuses_iff, MergesAt]

theorem length_of_withKeys (h : withKeys type docs payloads = .ok all) : all.length = docs.length := by
  obtain ⟨hl, h⟩ := withKeys_eq_ok_iff.1 h
  rw [mergeAll_eq_mapM] at h
  rw [length_of_mapM h, List.length_zip, hl, Nat.min_self]

/-- Whatever the payloads are, they are counted and then paired with the documents. -/
theorem paired_withKeys (type : DocumentType α) (docs : List α) (payloads : List ByteArray) :
    Paired type docs payloads (withKeys type docs payloads) where
  succeeds := by
    simp only [withKeys_eq_ok_iff, exists_and_left, exists_mergeAll_eq_ok_iff]
  returned all h :=
    ⟨length_of_withKeys h, fun _ _ _ hd hp => getElem?_of_mergeAll (withKeys_eq_ok_iff.1 h).2 hd hp⟩
  counted h := if_neg h
  first h e := by
    rw [withKeys, if_pos h]
    exact mergeAll_eq_error_iff

end

/-! ## Insertions -/

/-- An insertion of one document comes to what an insertion of the list of it comes to, in the same
world. -/
structure Alone (one : Except Failure α × World σ) (listed : Except Failure (List α) × World σ) :
    Prop where
  document : ∀ doc, one.1 = .ok doc ↔ listed.1 = .ok [doc]
  error : ∀ e, one.1 = .error e ↔ listed.1 = .error e
  world : one.2 = listed.2

variable (c : Collection α) (t : Transport σ) (w : World σ)

theorem length_of_insertMany {docs all : List α} {session? : Option Session}
    (h : ((c.insertMany t docs session?).perform w).1 = .ok all) : all.length = docs.length := by
  have he := (congrArg Prod.fst (c.effect_insertMany t w docs session?)).symm.trans h
  cases hq : c.insertRequest docs session? with
  | error e =>
    rw [hq] at he
    cases he
  | ok request =>
    rw [hq] at he
    obtain ⟨payloads, -, hk⟩ := bind_eq_ok_iff.1 he
    exact length_of_withKeys hk

/-- An insertion of one document does what an insertion of the list of it does. -/
theorem alone_insertOne (doc : α) (session? : Option Session) :
    Alone ((c.insertOne t doc session?).perform w) ((c.insertMany t [doc] session?).perform w) := by
  have hl : ∀ all, ((c.insertMany t [doc] session?).perform w).1 = .ok all → all.length = 1 :=
    fun all h => c.length_of_insertMany t w h
  unfold insertOne
  rw [Action.perform_bind]
  generalize (c.insertMany t [doc] session?).perform w = listed at hl
  obtain ⟨result, w'⟩ := listed
  cases result with
  | error e => exact ⟨by simp, by simp, rfl⟩
  | ok all =>
    obtain ⟨merged, rfl⟩ := List.length_eq_one_iff.1 (hl all rfl)
    have hr : (Action.ofExcept (lastInserted [merged])).perform w' = (.ok merged, w') := rfl
    exact ⟨by simp [hr], by simp [hr], rfl⟩

theorem perform_insertMany_of_answer {docs : List α} {session? : Option Session}
    {payloads : List ByteArray} (hd : ∀ doc ∈ docs, c.type.serializes doc = true)
    (hs : ∀ s ∈ session?, s.database = c.database)
    (ha : (t.insert ⟨c.database, c.type.collection, docs.map c.type.encode,
      session?.map Session.token⟩ w.transport).1 = .ok payloads) :
    ((c.insertMany t docs session?).perform w).1 = withKeys c.type docs payloads := by
  have hq : c.insertRequest docs session? =
      .ok ⟨c.database, c.type.collection, docs.map c.type.encode, session?.map Session.token⟩ :=
    insertRequest_eq_ok_iff.2 ⟨_, _, DocumentType.writeAll_eq_ok_iff.2 ⟨hd, rfl⟩,
      c.tokenOf_eq_ok_iff.2 ⟨hs, rfl⟩, rfl⟩
  refine (congrArg Prod.fst (c.effect_insertMany t w docs session?)).trans ?_
  rw [hq, exchange, ha, bind_ok]

/-- Whatever payloads a transport answers an insertion with, each document comes back with the keys of
its own payload or the insertion fails; and a document that is inserted alone comes back for a single
payload only. -/
theorem insertMany_paired {docs : List α} {session? : Option Session} {payloads : List ByteArray}
    (hd : ∀ doc ∈ docs, c.type.serializes doc = true)
    (hs : ∀ s ∈ session?, s.database = c.database)
    (ha : (t.insert ⟨c.database, c.type.collection, docs.map c.type.encode,
      session?.map Session.token⟩ w.transport).1 = .ok payloads) :
    Paired c.type docs payloads ((c.insertMany t docs session?).perform w).1 ∧
      ∀ doc, docs = [doc] →
        Alone ((c.insertOne t doc session?).perform w) ((c.insertMany t docs session?).perform w) ∧
        (payloads.length ≠ 1 → ∀ merged, ((c.insertOne t doc session?).perform w).1 ≠ .ok merged) := by
  have hp : Paired c.type docs payloads ((c.insertMany t docs session?).perform w).1 := by
    rw [c.perform_insertMany_of_answer t w hd hs ha]
    exact paired_withKeys c.type docs payloads
  refine ⟨hp, ?_⟩
  rintro doc rfl
  have halone := c.alone_insertOne t w doc session?
  refine ⟨halone, fun hn merged hm => ?_⟩
  have herror := hp.counted hn
  rw [(halone.document merged).1 hm] at herror
  cases herror

/-- Two documents in a session, and a document whose answer has no payload. -/
theorem insertMany_paired_scripted :
    let c : Collection Json := ⟨.anyJson "things" [] ["id"], "a"⟩
    let session : Session := ⟨"a", ⟨"tx-1", "recording"⟩, false⟩
    let docs : List Json := [.object [], .object [("id", .null), ("v", .bool true)]]
    let payloads := [Recording.keyPayload "id" 7, Recording.keyPayload "id" 8]
    let w : World Scripted := ⟨⟨.counting "id", [payloads], []⟩, []⟩
    let bare : World Scripted := ⟨⟨.counting "id", [[]], []⟩, []⟩
    Paired c.type docs payloads ((c.insertMany Scripted.transport docs (some session)).perform w).1 ∧
      ((c.insertMany Scripted.transport docs (some session)).perform w).1 =
        .ok [.object [("id", .number "7")], .object [("id", .number "8"), ("v", .bool true)]] ∧
      ∀ merged, ((c.insertOne Scripted.transport (.object []) none).perform bare).1 ≠ .ok merged := by
  intro c session docs payloads w bare
  have hd : ∀ doc : Json, c.type.serializes doc = true := fun _ => rfl
  refine ⟨?_, ?_, ?_⟩
  · exact (c.insertMany_paired Scripted.transport w (fun doc _ => hd doc) (by simp [session, c]) rfl).1
  · have hm : mergeAll c.type docs payloads = _ := mergeAll_anyJson (by decide) (by decide) (by decide)
      "things" [] ["id"] [[], [("id", .null), ("v", .bool true)]] [7, 8]
    rw [c.perform_insertMany_of_answer Scripted.transport w (fun doc _ => hd doc) (by simp [session, c])
      rfl, withKeys, if_pos (show payloads.length = docs.length from rfl), hm]
    rfl
  · exact ((c.insertMany_paired Scripted.transport bare (fun doc _ => hd doc) (by simp) rfl).2
      (.object []) rfl).2 (by decide)

end Collection
end DocWire
