import DocWire.Proofs.Client.Requests
import DocWire.Proofs.Json.Canonical
import DocWire.Proofs.Value.Dotted
import DocWire.Proofs.Value.Plain
import DocWire.Transport.Recording

/-!
# Documents with a generated number

The answer to an insertion names one field and its number for each document. Main statements:
`generatedKeys_keyPayload`, what such an answer is read as; `merge_anyJson`, a document that is an
object comes back with the field set, if it survives the handing over; and `kind_ne_of_mergeAll`,
documents that cannot be merged are no fault of the transport.
-/
set_option autoImplicit false

namespace DocWire

/-! ## Paths of one segment -/

theorem splitDots_of_not_mem {cs : List Char} (h : '.' ∉ cs) : splitDots cs = [cs] := by
  induction cs with
  | nil => rfl
  | cons c rest ih =>
    rw [List.mem_cons, not_or] at h
    rw [splitDots, if_neg (Ne.symm h.1), ih h.2]

theorem segments_of_not_mem {path : String} (h : '.' ∉ path.toList) : segments path = [path] := by
  rw [segments, splitDots_of_not_mem h, List.map_singleton, String.ofList_toList]

/-! ## Placing -/

theorem Json.kind_of_placeAt {path : String} {value : Json} {names : List String} {root : Entries Json}
    {e : Failure} (h : placeAt path value names root = .error e) : e.kind = .valueEncoding := by
  induction names generalizing root e with
  | nil => cases h
  | cons name rest ih =>
    cases rest with
    | nil => cases h
    | cons next others =>
      unfold placeAt at h
      split at h
      · rcases bind_eq_error_iff.1 h with h | ⟨inner, -, h⟩
        · exact ih h
        · cases h
      · rcases bind_eq_error_iff.1 h with h | ⟨inner, -, h⟩
        · exact ih h
        · cases h
      · cases h
        rfl

/-! ## The keys of an answer -/

theorem lexical_keyPayload (field : String) (n : UInt64) :
    (Json.object [(field, .ofInt n.toNat)]).Lexical :=
  ⟨Json.lexical_ofInt n.toNat, trivial⟩

/-- An answer is read as its field with the number, unless the field has the reserved name. -/
theorem generatedKeys_keyPayload {field : String} (hf : field ≠ Json.numberName) (n : UInt64) :
    generatedKeys (Recording.keyPayload field n) = .ok [(field, .ofInteger n.toNat)] := by
  have hd : (Json.object [(field, .ofInt n.toNat)]).depth ≤ Json.maxDepth :=
    (show 1 ≤ 127 by decide)
  have hplain : (Json.object [(field, .ofInt n.toNat)]).Plain :=
    ⟨Json.isWrapped_eq_false hf _ [], trivial, trivial⟩
  have hk : (Json.object [(field, .ofInt n.toNat)]).kept = .object [(field, .ofInt n.toNat)] := by
    rw [Json.kept, Json.keptMembers, Json.keptMembers, Json.kept_ofInt]
    rfl
  unfold generatedKeys Recording.keyPayload
  rw [Json.ofBytes_bytes (lexical_keyPayload field n) ((Json.unwraps_self_iff _).2 hplain) hd, hk]
  have hm : Value.ofJsonMembers [(field, .ofInt n.toNat)] = .ok [(field, .ofInteger n.toNat)] := by
    rw [Value.ofJsonMembers, Value.ofJson_ofInt]
    rfl
  have hf : Fields.ofJson [(field, .ofInt n.toNat)] = .ok [(field, .ofInteger n.toNat)] := by
    rw [Fields.ofJson, hm]
    rfl
  exact hf

/-- The reserved name with a number is no object. -/
theorem generatedKeys_reserved (n : UInt64) :
    ∃ fault, generatedKeys (Recording.keyPayload Json.numberName n) = .error (.json fault) := by
  have hreads := (Json.reads_text_iff (lexical_keyPayload Json.numberName n) _).2 rfl
  have hnot : ¬ ∃ plain, Json.Says
      (Json.object [(Json.numberName, .ofInt n.toNat)]).text plain := by
    rintro ⟨plain, hs⟩
    rcases ((Json.says_iff_of_reads hreads).1 hs).2.of_object with ⟨hw, -⟩ | ⟨text, -, hm, -⟩
    · cases hw
    · simp [Json.ofInt] at hm
  obtain ⟨fault, hf⟩ := Json.exists_error_ofText_iff.2 hnot
  refine ⟨fault, ?_⟩
  have hb : Json.ofBytes (Recording.keyPayload Json.numberName n) = .error fault := by
    rw [Json.ofBytes, Recording.keyPayload, Json.bytes, Json.symbols_toUTF8]
    exact hf
  rw [generatedKeys, hb]
  rfl

theorem leaves_integer {field : String} (hf : field ≠ "") (n : Int) :
    Fields.leaves [(field, .ofInteger n)] = .ok [(field, .ofInteger n)] :=
  Fields.leaves_singleton hf (Value.notObject_of_integer? (Value.integer?_ofInteger n))

/-- A number is set in an object as the member that the field names. -/
theorem mergeKeys_integer {field : String} (hf : field ≠ "") (hdot : '.' ∉ field.toList) (n : Int)
    (root : Entries Json) :
    mergeKeys [(field, .ofInteger n)] root = .ok (Entries.insert field (.ofInt n) root) := by
  have hj := Value.toJson_of_integer? (Value.integer?_ofInteger n)
  have hp : Json.place field (.ofInt n) root = .ok (Entries.insert field (.ofInt n) root) := by
    rw [Json.place, segments_of_not_mem hdot, Json.placeAt]
  rw [mergeKeys, leaves_integer hf, bind_ok, placeLeaves, hj, bind_ok, hp, bind_ok, placeLeaves]

theorem kind_of_mergeKeys {field : String} {n : Int} {root : Entries Json} {e : Failure}
    (h : mergeKeys [(field, .ofInteger n)] root = .error e) :
    e.kind = .filterEncoding ∨ e.kind = .valueEncoding := by
  rcases bind_eq_error_iff.1 h with h | ⟨leaves, hl, h⟩
  · exact .inl (Fields.kind_of_leaves h)
  · right
    have hf : field ≠ "" := by
      rintro rfl
      cases hl
    obtain rfl := Except.ok.inj ((leaves_integer hf n).symm.trans hl)
    rw [placeLeaves, Value.toJson_of_integer? (Value.integer?_ofInteger n), bind_ok] at h
    rcases bind_eq_error_iff.1 h with h | ⟨placed, -, h⟩
    · exact Json.kind_of_placeAt h
    · cases h

/-! ## Documents -/

/-- An object with a member set to a number. -/
def Json.withNumber (field : String) (members : Entries Json) (n : Nat) : Json :=
  .object (Entries.insert field (.ofInt n) members)

/-- A value after it was handed over to a document that may be any JSON value. -/
def Json.handedOver (json : Json) : Except Failure Json :=
  match json.canonical? with
  | some other => .ok other
  | none => .error (.json .malformed)

theorem Json.handedOver_eq_ok_iff {json other : Json} :
    json.handedOver = .ok other ↔ json.canonical? = some other := by
  unfold handedOver
  cases json.canonical? <;> simp

theorem Json.toOption_handedOver (json : Json) : json.handedOver.toOption = json.canonical? := by
  unfold handedOver
  cases json.canonical? <;> rfl

theorem Json.kind_of_handedOver {json : Json} {e : Failure} (h : json.handedOver = .error e) :
    e.kind = .json := by
  unfold handedOver at h
  split at h
  · cases h
  · cases h
    rfl

/-- An object comes back with the field set, if it can be handed over. -/
theorem merge_anyJson {field : String} (hf : field ≠ "") (hdot : '.' ∉ field.toList)
    (collection : String) (schemaFields primaryKey : List String) (members : Entries Json) (n : Nat) :
    (DocumentType.anyJson collection schemaFields primaryKey).merge (.object members)
        [(field, .ofInteger n)] = (Json.withNumber field members n).handedOver := by
  have hm := mergeKeys_integer hf hdot (n : Int) members
  have hv : (DocumentType.anyJson collection schemaFields primaryKey).value (.object members) =
      .ok (.object members) := rfl
  have hj : (DocumentType.anyJson collection schemaFields primaryKey).ofJson? = Json.canonical? := rfl
  unfold DocumentType.merge Json.handedOver
  rw [hv, bind_ok]
  simp only
  rw [hm, bind_ok, hj, Json.withNumber]
  cases Json.canonical? (.object (Entries.insert field (.ofInt n) members)) <;> rfl

theorem kind_ne_of_merge {α : Type} {type : DocumentType α} {doc : α} {field : String} {n : Int}
    {e : Failure} (h : type.merge doc [(field, .ofInteger n)] = .error e) : e.kind ≠ .transport := by
  unfold DocumentType.merge at h
  rcases bind_eq_error_iff.1 h with hv | ⟨json, -, h⟩
  · unfold DocumentType.value at hv
    split at hv
    · cases hv
    · cases hv
      exact FailureKind.noConfusion
  · split at h
    · rcases bind_eq_error_iff.1 h with h | ⟨merged, -, h⟩
      · rcases kind_of_mergeKeys h with hk | hk <;> rw [hk] <;> exact FailureKind.noConfusion
      · split at h
        · cases h
        · cases h
          exact FailureKind.noConfusion
    · cases h
      exact FailureKind.noConfusion

namespace Collection
variable {α : Type} {type : DocumentType α}

/-- Documents that cannot be merged with the keys of a recording transport are not the transport's
fault. -/
theorem kind_ne_of_mergeAll {field : String} {docs : List α} {numbers : List UInt64} {e : Failure}
    (h : mergeAll type docs (numbers.map (Recording.keyPayload field)) = .error e) :
    e.kind ≠ .transport := by
  rw [mergeAll_eq_mapM] at h
  obtain ⟨i, ⟨doc, payload⟩, hi, hm, -⟩ := mapM_eq_error_iff.1 h
  obtain ⟨-, hp⟩ := List.getElem?_zip_eq_some.1 hi
  obtain ⟨n, -, rfl⟩ := List.mem_map.1 (List.mem_of_getElem? hp)
  have hm : (generatedKeys (Recording.keyPayload field n) >>= type.merge doc) = .error e := hm
  by_cases hf : field = Json.numberName
  · obtain ⟨fault, hk⟩ := generatedKeys_reserved n
    rw [hf, hk, bind_error] at hm
    cases hm
    exact FailureKind.noConfusion
  · rw [generatedKeys_keyPayload hf, bind_ok] at hm
    exact kind_ne_of_merge hm

/-- Objects come back with their numbers, handed over one by one, unless the field has the reserved
name. -/
theorem mergeAll_anyJson {field : String} (hf : field ≠ "") (hdot : '.' ∉ field.toList)
    (hne : field ≠ Json.numberName) (collection : String) (schemaFields primaryKey : List String)
    (objects : List (Entries Json)) (numbers : List UInt64) :
    mergeAll (.anyJson collection schemaFields primaryKey) (objects.map .object)
        (numbers.map (Recording.keyPayload field)) =
      (List.zipWith (Json.withNumber field) objects (numbers.map UInt64.toNat)).mapM
        Json.handedOver := by
  induction objects generalizing numbers with
  | nil => rfl
  | cons members objects ih =>
    cases numbers with
    | nil => rfl
    | cons n numbers =>
      rw [List.map_cons, List.map_cons, mergeAll, generatedKeys_keyPayload hne, bind_ok,
        merge_anyJson hf hdot, ih, List.map_cons, List.zipWith_cons_cons, List.mapM_cons]
      generalize (Json.withNumber field members n.toNat).handedOver = first
      generalize (List.zipWith (Json.withNumber field) objects _).mapM Json.handedOver = others
      cases first <;> cases others <;> rfl

/-- Under the reserved name no object comes back. -/
theorem mergeAll_reserved (collection : String) (schemaFields primaryKey : List String)
    (members : Entries Json) (objects : List (Entries Json)) (n : UInt64) (numbers : List UInt64) :
    ∃ fault, mergeAll (.anyJson collection schemaFields primaryKey)
        ((members :: objects).map .object)
        ((n :: numbers).map (Recording.keyPayload Json.numberName)) = .error (.json fault) := by
  obtain ⟨fault, hk⟩ := generatedKeys_reserved n
  exact ⟨fault, by rw [List.map_cons, List.map_cons, mergeAll, hk, bind_error]⟩

end Collection
end DocWire
