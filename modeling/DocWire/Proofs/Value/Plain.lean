import DocWire.Proofs.Value.Received
import DocWire.Value.Plain

/-!
# One value, two encoders

Updates write the text of a value piece by piece, and merging puts a JSON value for it into a
document. What is written is the text of the JSON value; only the writer has a limit on depth. Main
statements: `wire_update_eq_ok_iff` and `push_agrees_toJson`.
-/
set_option autoImplicit false

namespace DocWire.Value

/-- The digits of a wide integer are read as the number that they are. -/
theorem toJson_wide (n : WideInteger) : (wide n).toJson = .ok (.number n.text) := by
  have hn : Json.number n.text = .ofInt n.value := (Json.ofInt_eq n.value).symm
  have hl : (Json.number n.text).Lexical := hn ▸ Json.lexical_ofInt n.value
  have hk : (Json.number n.text).kept = .number n.text := by rw [hn, Json.kept_ofInt]
  have hreads : Json.Reads n.text (.number n.text) := by
    have h := (Json.reads_text_iff hl _).2 rfl
    rwa [text_number] at h
  rw [toJson, Json.ofText_of_reads hreads (.number n.text) (Nat.zero_le _), hk]
  rfl

mutual
theorem toJson_eq_ok_iff (value : Value) (hd : value.NamesDistinct) (json : Json) :
    toJson value = .ok json ↔ value.Finite ∧ value.tree = json := by
  match value with
  | .null | .bool _ | .string _ | .instant _ | .uuid _ | .int _ | .uint _ =>
    simp [toJson, tree, finite_of_scalar]
  | .wide n =>
    rw [toJson_wide]
    simp [tree, finite_of_scalar]
  | .float x =>
    rw [finite_float_iff]
    by_cases hf : x.isFinite = true <;> simp [toJson, hf, tree]
  | .array items =>
    have hi := toJsonItems_eq_ok_iff items hd
    simp [toJson, bind_eq_ok_iff, hi, finite_array_iff, tree]
  | .object fields =>
    have hf := toJsonFields_eq_ok_iff fields hd.2
    have hdist : Entries.Distinct (fieldTrees fields) := by
      rw [Entries.Distinct, keys_fieldTrees]
      exact hd.1
    have hof := Entries.ofList_of_distinct hdist
    rw [finite_object_iff, toJson]
    simp only [bind_eq_ok_iff, hf, tree, Except.ok.injEq]
    constructor
    · rintro ⟨_, ⟨hfin, rfl⟩, rfl⟩
      exact ⟨hfin, by rw [hof]⟩
    · rintro ⟨hfin, rfl⟩
      exact ⟨_, ⟨hfin, rfl⟩, by rw [hof]⟩
termination_by structural value

theorem toJsonItems_eq_ok_iff (items : List Value) (hd : ItemsDistinct items) (list : List Json) :
    toJsonItems items = .ok list ↔ (∀ item ∈ items, item.Finite) ∧ itemTrees items = list := by
  match items with
  | [] => simp [toJsonItems, itemTrees]
  | item :: rest =>
    have hi := toJson_eq_ok_iff item hd.1
    have hr := toJsonItems_eq_ok_iff rest hd.2
    simp only [toJsonItems, bind_eq_ok_iff, hi, hr, List.forall_mem_cons, itemTrees,
      Except.ok.injEq]
    constructor
    · rintro ⟨_, ⟨hitem, rfl⟩, _, ⟨hrest, rfl⟩, hj⟩
      exact ⟨⟨hitem, hrest⟩, hj⟩
    · rintro ⟨⟨hitem, hrest⟩, hj⟩
      exact ⟨_, ⟨hitem, rfl⟩, _, ⟨hrest, rfl⟩, hj⟩
termination_by structural items

theorem toJsonFields_eq_ok_iff (fields : List (String × Value)) (hd : FieldsDistinct fields)
    (members : List (String × Json)) :
    toJsonFields fields = .ok members ↔
      (∀ field ∈ fields, field.2.Finite) ∧ fieldTrees fields = members := by
  match fields with
  | [] => simp [toJsonFields, fieldTrees]
  | (name, value) :: rest =>
    have hv := toJson_eq_ok_iff value hd.1
    have hr := toJsonFields_eq_ok_iff rest hd.2
    simp only [toJsonFields, bind_eq_ok_iff, hv, hr, List.forall_mem_cons, fieldTrees,
      Except.ok.injEq]
    constructor
    · rintro ⟨_, ⟨hvalue, rfl⟩, _, ⟨hrest, rfl⟩, hj⟩
      exact ⟨⟨hvalue, hrest⟩, hj⟩
    · rintro ⟨⟨hvalue, hrest⟩, hj⟩
      exact ⟨_, ⟨hvalue, rfl⟩, _, ⟨hrest, rfl⟩, hj⟩
termination_by structural fields
end

/-! ## Scalars and fields -/

theorem toJson_of_integer? {value : Value} {n : Int} (h : value.integer? = some n) :
    value.toJson = .ok (.ofInt n) := by
  cases value with
  | int n => cases h; rfl
  | uint n => cases h; rfl
  | wide n =>
    cases h
    rw [toJson_wide, Json.ofInt_eq]
    rfl
  | _ => cases h

theorem ne_object_of_toJson {value : Value} (h : value.NotObject) {json : Json}
    (hj : value.toJson = .ok json) (members : Entries Json) : json ≠ .object members := by
  cases value with
  | object fields => exact absurd rfl (h fields)
  | float x =>
    unfold toJson at hj
    split at hj
    · cases hj
      exact Json.noConfusion
    · cases hj
  | wide n =>
    rw [toJson_wide] at hj
    cases hj
    exact Json.noConfusion
  | array items =>
    obtain ⟨list, -, hj⟩ := bind_eq_ok_iff.1 hj
    cases hj
    exact Json.noConfusion
  | _ =>
    cases hj
    exact Json.noConfusion

theorem toJsonFields_cons_eq_ok_iff {field : String × Value} {rest : Fields} {members : Entries Json} :
    toJsonFields (field :: rest) = .ok members ↔
      ∃ json others, field.2.toJson = .ok json ∧ toJsonFields rest = .ok others ∧
        members = (field.1, json) :: others := by
  constructor
  · intro h
    obtain ⟨json, hjson, h⟩ := bind_eq_ok_iff.1 h
    obtain ⟨others, hothers, h⟩ := bind_eq_ok_iff.1 h
    exact ⟨json, others, hjson, hothers, (Except.ok.inj h).symm⟩
  · rintro ⟨json, others, hjson, hothers, rfl⟩
    rw [toJsonFields, hjson, bind_ok, hothers, bind_ok]

theorem keys_of_toJsonFields {fields : Fields} {members : Entries Json}
    (h : toJsonFields fields = .ok members) : Entries.keys members = Entries.keys fields := by
  induction fields generalizing members with
  | nil =>
    cases h
    rfl
  | cons field rest ih =>
    obtain ⟨json, others, -, hothers, rfl⟩ := toJsonFields_cons_eq_ok_iff.1 h
    exact congrArg (field.1 :: ·) (ih hothers)

/-- What holds of the names of fields holds of the names of their JSON values. -/
theorem forall_name_of_toJsonFields {fields : Fields} {members : Entries Json}
    (h : toJsonFields fields = .ok members) (p : String → Prop) :
    (∀ member ∈ members, p member.1) ↔ ∀ field ∈ fields, p field.1 := by
  calc (∀ member ∈ members, p member.1)
    _ ↔ ∀ name ∈ Entries.keys members, p name := List.forall_mem_map.symm
    _ ↔ ∀ name ∈ Entries.keys fields, p name := by rw [keys_of_toJsonFields h]
    _ ↔ ∀ field ∈ fields, p field.1 := List.forall_mem_map

theorem ne_object_of_toJsonFields {fields : Fields} (hflat : fields.Flat) {members : Entries Json}
    (h : toJsonFields fields = .ok members) :
    ∀ member ∈ members, ∀ inner, member.2 ≠ .object inner := by
  induction fields generalizing members with
  | nil =>
    cases h
    exact List.forall_mem_nil _
  | cons field rest ih =>
    obtain ⟨hfield, hflat⟩ := List.forall_mem_cons.1 hflat
    obtain ⟨json, others, hjson, hothers, rfl⟩ := toJsonFields_cons_eq_ok_iff.1 h
    exact List.forall_mem_cons.2 ⟨ne_object_of_toJson hfield hjson, ih hflat hothers⟩

theorem toJsonFields_append_eq_ok {front back : Fields} {members : Entries Json}
    (h : toJsonFields (front ++ back) = .ok members) :
    ∃ before after, toJsonFields front = .ok before ∧ toJsonFields back = .ok after ∧
      members = before ++ after := by
  induction front generalizing members with
  | nil => exact ⟨[], members, rfl, h, rfl⟩
  | cons field rest ih =>
    rw [List.cons_append] at h
    obtain ⟨json, others, hjson, hothers, rfl⟩ := toJsonFields_cons_eq_ok_iff.1 h
    obtain ⟨before, after, hbefore, hafter, rfl⟩ := ih hothers
    have hfront := toJsonFields_cons_eq_ok_iff.2 ⟨json, before, hjson, hbefore, rfl⟩
    exact ⟨_, after, hfront, hafter, rfl⟩

/-! ## Both encoders -/

/-- What an update writes is the JSON value, where it does not go down too far. -/
theorem wire_update_eq_ok_iff (path : String) (value : Value) (hd : value.NamesDistinct) (json : Json) :
    value.wire .update path = .ok json ↔
      value.toJson = .ok json ∧ ∀ n inner, value.Holds n inner → n ≤ pathDepthLimit := by
  rw [wire, wireAt_eq_ok_iff, toJson_eq_ok_iff value hd]
  simp only [Nat.zero_add, sendable_update_iff]
  constructor
  · rintro ⟨h, ht⟩
    have hf : value.Finite := fun n inner hh => (h n inner hh).2
    exact ⟨⟨hf, ht⟩, fun n inner hh => (h n inner hh).1⟩
  · rintro ⟨⟨hf, ht⟩, hn⟩
    exact ⟨fun n inner hh => ⟨hn n inner hh, hf n inner hh⟩, ht⟩

/-- What the writer adds to a text is the text of the wire form. -/
theorem push_eq_ok_iff (role : WireRole) (path out text : String) (value : Value) :
    value.push role path 0 out = .ok text ↔
      ∃ json, value.wire role path = .ok json ∧ text = out ++ json.text := by
  rw [adds_push role path 0 value out, ← wire, bind_eq_ok_iff]
  simp only [Except.ok.injEq, eq_comm]

/-- The writer of updates and the encoder of documents agree: what the first writes of a value is the
text of what the second makes of it. Where only the second succeeds, something stands too deep in the
value. Neither takes a float that is not finite. -/
theorem push_agrees_toJson (path out : String) (value : Value) (hd : value.NamesDistinct) :
    (∀ text, value.push .update path 0 out = .ok text →
      ∃ plain, value.toJson = .ok plain ∧ text = out ++ plain.text) ∧
    (∀ plain failure, value.toJson = .ok plain → value.push .update path 0 out = .error failure →
      ∃ n inner, value.Holds n inner ∧ pathDepthLimit < n) ∧
    ∀ n x, value.Holds n (.float x) → x.isFinite = false →
      (∃ failure, value.push .update path 0 out = .error failure) ∧
        ∃ failure, value.toJson = .error failure := by
  have hiff := wire_update_eq_ok_iff path value hd
  have hpush := fun text => push_eq_ok_iff .update path out text value
  refine ⟨?_, ?_, ?_⟩
  · intro text ht
    obtain ⟨json, hj, rfl⟩ := (hpush text).1 ht
    exact ⟨json, ((hiff json).1 hj).1, rfl⟩
  · intro plain failure hp hw
    by_contra hnone
    push Not at hnone
    have hs : value.wire .update path = .ok plain := (hiff plain).2 ⟨hp, hnone⟩
    rw [(hpush (out ++ plain.text)).2 ⟨plain, hs, rfl⟩] at hw
    cases hw
  · intro n x hh hx
    have hplain : ∀ json, value.toJson ≠ .ok json := by
      intro json hj
      have hf := ((toJson_eq_ok_iff value hd json).1 hj).1 n _ hh x rfl
      rw [hf] at hx
      cases hx
    have hsent : ∀ text, value.push .update path 0 out ≠ .ok text := by
      intro text ht
      obtain ⟨json, hj, -⟩ := (hpush text).1 ht
      exact hplain json ((hiff json).1 hj).1
    constructor
    · cases hw : value.push .update path 0 out with
      | error failure => exact ⟨failure, rfl⟩
      | ok text => exact absurd hw (hsent text)
    · cases hj : value.toJson with
      | error failure => exact ⟨failure, rfl⟩
      | ok json => exact absurd hj (hplain json)

/-- An object in an array in an object, with integers of three variants. -/
theorem push_agrees_toJson_nested :
    let value : Value :=
      .object [("a", .array [.int 1, .object [("b", .wide ⟨2⟩), ("c", .uuid ⟨0⟩)]]), ("d", .uint 3)]
    let text := "\x7b\"a\":[1,\x7b\"b\":2," ++
      "\"c\":\"00000000-0000-0000-0000-000000000000\"\x7d],\"d\":3\x7d"
    value.NamesDistinct ∧ value.push .update "" 0 "" = .ok text ∧
      ∃ plain, value.toJson = .ok plain ∧ text = "" ++ plain.text := by
  intro value text
  have hd : value.NamesDistinct := by
    simp [value, NamesDistinct, FieldsDistinct, ItemsDistinct, Entries.Distinct, Entries.keys]
  have hw : value.push .update "" 0 "" = .ok text := by decide +kernel
  exact ⟨hd, hw, (push_agrees_toJson "" "" value hd).1 text hw⟩

end DocWire.Value
