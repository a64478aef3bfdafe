import DocWire.Proofs.Json.Reading
import DocWire.Proofs.Number.ReadBack
import DocWire.Proofs.Value.Leaves
import DocWire.Proofs.Value.Wire
import DocWire.Value.Source

/-!
# Values that have been sent

What was sent as a value arrives as `Value.received`: integers in the narrowest variant, instants
and identifiers as their texts, all else as it was. Main statements: `ofJson_of_wireAt`, this is
what the wire form reads as, and `wireAt_received`, it has the same wire form again.
-/
set_option autoImplicit false

namespace DocWire

namespace Json

theorem ofInt_eq (n : Int) : ofInt n = .number (String.ofList (signedDigits n)) := by
  rw [ofInt, toString_eq_signedDigits]

theorem keptNumber_signedDigits (n : Int) : keptNumber (signedDigits n) = signedDigits n := by
  have hall : ∀ c ∈ signedDigits n, c ≠ 'e' ∧ c ≠ 'E' := by
    intro c hc
    unfold signedDigits at hc
    split at hc
    · rcases List.mem_cons.1 hc with rfl | hc
      · decide
      · exact Grammar.ne_mark_of_isDigit (isDigit_of_mem_digits hc)
    · exact Grammar.ne_mark_of_isDigit (isDigit_of_mem_digits hc)
  exact Grammar.keptNumber_eq_self hall

theorem kept_ofInt (n : Int) : (ofInt n).kept = ofInt n := by
  rw [ofInt_eq, kept, String.toList_ofList, keptNumber_signedDigits]

theorem kept_float {x : Binary64} (hf : x.isFinite = true) :
    (number x.text).kept = number x.text := by
  rw [Binary64.text, kept, String.toList_ofList, Binary64.keptNumber_chars hf]

end Json

namespace Value

mutual
/-- No map in a value, however deep it stands, has two fields of one name. -/
def NamesDistinct : Value → Prop
  | array items => ItemsDistinct items
  | object fields => Entries.Distinct fields ∧ FieldsDistinct fields
  | _ => True

def ItemsDistinct : List Value → Prop
  | [] => True
  | item :: rest => NamesDistinct item ∧ ItemsDistinct rest

def FieldsDistinct : List (String × Value) → Prop
  | [] => True
  | (_, value) :: rest => NamesDistinct value ∧ FieldsDistinct rest
end

theorem fieldsDistinct_iff (fields : Fields) :
    FieldsDistinct fields ↔ ∀ field ∈ fields, field.2.NamesDistinct := by
  induction fields with
  | nil => simp [FieldsDistinct]
  | cons field rest ih => simp [FieldsDistinct, ih]

theorem fieldsDistinct_append {fields others : Fields} (h : FieldsDistinct fields)
    (ho : FieldsDistinct others) : FieldsDistinct (fields ++ others) := by
  rw [fieldsDistinct_iff] at *
  exact List.forall_mem_append.2 ⟨h, ho⟩

theorem namesDistinct_ofList {fields : List (String × Value)} (h : FieldsDistinct fields) :
    (object (Entries.ofList fields)).NamesDistinct := by
  obtain ⟨hd, hm⟩ := Entries.ofList_spec fields
  rw [fieldsDistinct_iff] at h
  exact ⟨hd, (fieldsDistinct_iff _).2 fun field hf => h field (hm field hf)⟩

theorem namesDistinct_ofInteger (n : Int) : (ofInteger n).NamesDistinct := by
  unfold ofInteger ofUnsigned
  split
  · trivial
  · split <;> trivial

mutual
/-- Values that are read from JSON have distinct names. -/
theorem namesDistinct_of_ofJson (json : Json) (value : Value) (h : ofJson json = .ok value) :
    value.NamesDistinct := by
  match json with
  | .null | .bool _ | .string _ =>
    cases h
    trivial
  | .number text =>
    unfold ofJson ofNumber at h
    split at h
    · cases h
      exact namesDistinct_ofInteger _
    · split at h
      · cases h
        trivial
      · cases h
  | .array items =>
    unfold ofJson at h
    obtain ⟨values, hv, h⟩ := bind_eq_ok_iff.1 h
    cases h
    exact itemsDistinct_of_ofJsonItems items values hv
  | .object members =>
    unfold ofJson at h
    obtain ⟨fields, hf, h⟩ := bind_eq_ok_iff.1 h
    cases h
    exact namesDistinct_ofList (fieldsDistinct_of_ofJsonMembers members fields hf)

theorem itemsDistinct_of_ofJsonItems (items : List Json) (values : List Value)
    (h : ofJsonItems items = .ok values) : ItemsDistinct values := by
  match items with
  | [] =>
    cases h
    trivial
  | item :: rest =>
    unfold ofJsonItems at h
    obtain ⟨value, hv, h⟩ := bind_eq_ok_iff.1 h
    obtain ⟨others, ho, h⟩ := bind_eq_ok_iff.1 h
    cases h
    exact ⟨namesDistinct_of_ofJson item value hv, itemsDistinct_of_ofJsonItems rest others ho⟩

theorem fieldsDistinct_of_ofJsonMembers (members : List (String × Json))
    (fields : List (String × Value)) (h : ofJsonMembers members = .ok fields) :
    FieldsDistinct fields := by
  match members with
  | [] =>
    cases h
    trivial
  | (name, member) :: rest =>
    unfold ofJsonMembers at h
    obtain ⟨value, hv, h⟩ := bind_eq_ok_iff.1 h
    obtain ⟨others, ho, h⟩ := bind_eq_ok_iff.1 h
    cases h
    exact ⟨namesDistinct_of_ofJson member value hv, fieldsDistinct_of_ofJsonMembers rest others ho⟩
end

mutual
/-- What a reader of JSON makes of a value's wire form. -/
def received : Value → Value
  | int n => ofInteger n.toInt
  | uint n => ofInteger n.toNat
  | wide n => ofInteger n.value
  | instant t => string t.text
  | uuid u => string u.text
  | array items => array (receivedItems items)
  | object fields => object (receivedFields fields)
  | null => null
  | bool b => bool b
  | float x => float x
  | string s => string s

def receivedItems : List Value → List Value
  | [] => []
  | item :: rest => received item :: receivedItems rest

def receivedFields : List (String × Value) → List (String × Value)
  | [] => []
  | (name, value) :: rest => (name, received value) :: receivedFields rest
end

theorem keys_receivedFields (fields : Fields) :
    Entries.keys (receivedFields fields) = Entries.keys fields := by
  induction fields with
  | nil => rfl
  | cons field rest ih => exact congrArg (field.1 :: ·) ih

/-! ## Integers -/

theorem wireAt_of_integer? {value : Value} {n : Int} (h : value.integer? = some n) (role : WireRole)
    (path : String) (depth : Nat) :
    wireAt role path depth value =
      if pathDepthLimit < depth then .error (.filter (.valueTooDeep path)) else .ok (.ofInt n) := by
  cases value with
  | int n => cases h; rfl
  | uint n => cases h; rfl
  | wide n =>
    cases h
    rw [Json.ofInt_eq]
    rfl
  | _ => cases h

theorem ofJson_ofInt (n : Int) : ofJson (.ofInt n) = .ok (ofInteger n) := by
  rw [Json.ofInt_eq, ofJson, ofNumber, String.toList_ofList, integer?_signedDigits]

theorem isNumeric_of_integer? {value : Value} {n : Int} (h : value.integer? = some n) :
    value.isNumeric = true := by
  cases value with
  | int | uint | wide => rfl
  | _ => cases h

/-- An integer arrives as the same number. -/
theorem received_of_integer? {value : Value} {n : Int} (h : value.integer? = some n) :
    value.received = ofInteger n := by
  cases value with
  | int n => cases h; rfl
  | uint n => cases h; rfl
  | wide n => cases h; rfl
  | _ => cases h

theorem wireAt_received_integer {value : Value} {n : Int} (h : value.integer? = some n)
    (role : WireRole) (path : String) (depth : Nat) :
    wireAt role path depth value.received = wireAt role path depth value := by
  rw [received_of_integer? h, wireAt_of_integer? (integer?_ofInteger n), wireAt_of_integer? h]

theorem notObject_received {value : Value} (h : value.NotObject) : value.received.NotObject := by
  have hint : ∀ n, (ofInteger n).NotObject := fun n => notObject_of_integer? (integer?_ofInteger n)
  cases value with
  | int n => exact hint n.toInt
  | uint n => exact hint n.toNat
  | wide n => exact hint n.value
  | object fields => exact absurd rfl (h fields)
  | _ =>
    intro fields he
    cases he

/-! ## The wire form of what was received -/

mutual
/-- A value that has been sent is sent in the same form again. -/
theorem wireAt_received (role : WireRole) (path : String) (depth : Nat) (value : Value) :
    wireAt role path depth value.received = wireAt role path depth value := by
  match value with
  | .int n => exact wireAt_received_integer rfl role path depth
  | .uint n => exact wireAt_received_integer rfl role path depth
  | .wide n => exact wireAt_received_integer rfl role path depth
  | .null | .bool _ | .float _ | .string _ | .instant _ | .uuid _ => rfl
  | .array items =>
    have hi := wireItems_received role path (depth + 1) items
    cases role with
    | selector => rfl
    | update =>
      rw [received]
      unfold wireAt
      simp only
      rw [hi]
  | .object fields =>
    have hf := wireFields_received role path (depth + 1) fields
    rw [received]
    unfold wireAt
    simp only
    rw [hf]
termination_by structural value

theorem wireItems_received (role : WireRole) (path : String) (depth : Nat) (items : List Value) :
    wireItems role path depth (receivedItems items) = wireItems role path depth items := by
  match items with
  | [] => rfl
  | item :: rest =>
    have hi := wireAt_received role path depth item
    have hr := wireItems_received role path depth rest
    rw [receivedItems, wireItems, wireItems, hi, hr]
termination_by structural items

theorem wireFields_received (role : WireRole) (path : String) (depth : Nat)
    (fields : List (String × Value)) :
    wireFields role path depth (receivedFields fields) = wireFields role path depth fields := by
  match fields with
  | [] => rfl
  | (name, value) :: rest =>
    have hv := wireAt_received role path depth value
    have hr := wireFields_received role path depth rest
    rw [receivedFields, wireFields, wireFields, hv, hr]
termination_by structural fields
end

/-! ## Reading the wire form -/

mutual
/-- A reader keeps the tree of a value as it is. -/
theorem kept_tree (value : Value) (hd : value.NamesDistinct) (h : value.Finite) :
    value.tree.kept = value.tree := by
  match value with
  | .null | .bool _ | .string _ | .instant _ | .uuid _ => rfl
  | .int n => exact Json.kept_ofInt n.toInt
  | .uint n => exact Json.kept_ofInt n.toNat
  | .wide n =>
    have hk := Json.kept_ofInt n.value
    rwa [Json.ofInt_eq] at hk
  | .float x => exact Json.kept_float ((finite_float_iff x).1 h)
  | .array items =>
    have hi := kept_itemTrees items hd ((finite_array_iff items).1 h)
    rw [tree, Json.kept, hi]
  | .object fields =>
    have hf := kept_fieldTrees fields hd.2 ((finite_object_iff fields).1 h)
    have hdist : Entries.Distinct (fieldTrees fields) := by
      rw [Entries.Distinct, keys_fieldTrees]
      exact hd.1
    rw [tree, Json.kept, hf, Entries.ofList_of_distinct hdist]
termination_by structural value

theorem kept_itemTrees (items : List Value) (hd : ItemsDistinct items)
    (h : ∀ item ∈ items, item.Finite) : Json.keptItems (itemTrees items) = itemTrees items := by
  match items with
  | [] => rfl
  | item :: rest =>
    obtain ⟨hi, hr⟩ := List.forall_mem_cons.1 h
    rw [itemTrees, Json.keptItems, kept_tree item hd.1 hi, kept_itemTrees rest hd.2 hr]
termination_by structural items

theorem kept_fieldTrees (fields : List (String × Value)) (hd : FieldsDistinct fields)
    (h : ∀ field ∈ fields, field.2.Finite) :
    Json.keptMembers (fieldTrees fields) = fieldTrees fields := by
  match fields with
  | [] => rfl
  | (name, value) :: rest =>
    obtain ⟨hv, hr⟩ := List.forall_mem_cons.1 h
    rw [fieldTrees, Json.keptMembers, kept_tree value hd.1 hv, kept_fieldTrees rest hd.2 hr]
termination_by structural fields
end

theorem ofNumber_float {x : Binary64} (hf : x.isFinite = true) : ofNumber x.text = .ok (float x) := by
  have hint : DocWire.integer? x.text.toList = none := by
    rw [Binary64.text, String.toList_ofList]
    exact Binary64.integer?_chars hf
  have hkeep : (some x).filter Binary64.isFinite = some x := if_pos hf
  rw [ofNumber, hint, Binary64.ofText?_text hf]
  simp only
  rw [hkeep]

mutual
/-- The tree of a value is read as the value received. -/
theorem ofJson_tree (value : Value) (hd : value.NamesDistinct) (h : value.Finite) :
    ofJson value.tree = .ok value.received := by
  match value with
  | .null | .bool _ | .string _ | .instant _ | .uuid _ => rfl
  | .int n => exact ofJson_ofInt n.toInt
  | .uint n => exact ofJson_ofInt n.toNat
  | .wide n =>
    have hk := ofJson_ofInt n.value
    rwa [Json.ofInt_eq] at hk
  | .float x => exact ofNumber_float ((finite_float_iff x).1 h)
  | .array items =>
    have hi := ofJson_itemTrees items hd ((finite_array_iff items).1 h)
    rw [tree, ofJson, hi, bind_ok, received]
  | .object fields =>
    have hf := ofJson_fieldTrees fields hd.2 ((finite_object_iff fields).1 h)
    -- The reader inserts the members one by one, and replaces where a name comes again.
    have hdist : Entries.Distinct (receivedFields fields) := by
      rw [Entries.Distinct, keys_receivedFields]
      exact hd.1
    rw [tree, ofJson, hf, bind_ok, received, Entries.ofList_of_distinct hdist]
termination_by structural value

theorem ofJson_itemTrees (items : List Value) (hd : ItemsDistinct items)
    (h : ∀ item ∈ items, item.Finite) : ofJsonItems (itemTrees items) = .ok (receivedItems items) := by
  match items with
  | [] => rfl
  | item :: rest =>
    obtain ⟨hi, hr⟩ := List.forall_mem_cons.1 h
    rw [itemTrees, ofJsonItems, ofJson_tree item hd.1 hi, bind_ok, ofJson_itemTrees rest hd.2 hr,
      bind_ok, receivedItems]
termination_by structural items

theorem ofJson_fieldTrees (fields : List (String × Value)) (hd : FieldsDistinct fields)
    (h : ∀ field ∈ fields, field.2.Finite) :
    ofJsonMembers (fieldTrees fields) = .ok (receivedFields fields) := by
  match fields with
  | [] => rfl
  | (name, value) :: rest =>
    obtain ⟨hv, hr⟩ := List.forall_mem_cons.1 h
    rw [fieldTrees, ofJsonMembers, ofJson_tree value hd.1 hv, bind_ok,
      ofJson_fieldTrees rest hd.2 hr, bind_ok, receivedFields]
termination_by structural fields
end

/-- A reader keeps a wire form as it is. -/
theorem kept_of_wireAt (role : WireRole) (path : String) (depth : Nat) (value : Value) (json : Json)
    (hd : value.NamesDistinct) (h : wireAt role path depth value = .ok json) : json.kept = json := by
  rw [← tree_of_wireAt h]
  exact kept_tree value hd (finite_of_wireAt h)

/-- A wire form is read as the value received. -/
theorem ofJson_of_wireAt (role : WireRole) (path : String) (depth : Nat) (value : Value)
    (json : Json) (hd : value.NamesDistinct) (h : wireAt role path depth value = .ok json) :
    ofJson json = .ok value.received := by
  rw [← tree_of_wireAt h]
  exact ofJson_tree value hd (finite_of_wireAt h)

end Value
end DocWire
