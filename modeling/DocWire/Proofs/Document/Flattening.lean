import DocWire.Proofs.Filter.Written
import DocWire.Proofs.Document.Unflattening

/-!
# Leaves by position

The position of a value in nested maps counts the fields before it in each map on the way. Leaves are
found in the order of their positions, each once, and the path of a leaf is the names on the way joined
by dots. Whether a map has leaves is stated for its positions as well, without the traversal that finds
them. Main statements: `mem_spots_iff` and `pairwise_spots`, where leaves are found; `wellShaped_iff`,
which maps have leaves; and `leaves_exact`.
-/
set_option autoImplicit false

namespace DocWire

theorem intercalate_dot (first : List Char) (rest : List (List Char)) :
    ['.'].intercalate (first :: rest) = first ++ rest.flatMap ('.' :: ·) := by
  induction rest generalizing first with
  | nil => simp
  | cons next rest ih => simp [ih]

/-- The path that names lead to from the outermost map joins them by dots. -/
theorem pathFrom_none (names : List String) : pathFrom none names = ".".intercalate names := by
  cases names with
  | nil => rfl
  | cons name rest =>
    have hdot : ".".toList = ['.'] := rfl
    apply String.toList_inj.1
    rw [pathFrom, childPath, toList_pathFrom_some, String.toList_intercalate, List.map_cons, hdot,
      intercalate_dot, List.flatMap_map]

namespace Value

mutual
/-- What holds of all values but objects, and goes from the fields of an object to the object, holds of
all values. Arrays are not entered. -/
theorem induction_fields {motive : Value → Prop} (leaf : ∀ value, value.NotObject → motive value)
    (object : ∀ fields, (∀ field ∈ fields, motive field.2) → motive (object fields)) (value : Value) :
    motive value := by
  match value with
  | .object fields => exact object fields (induction_fields_all leaf object fields)
  | .null | .bool _ | .int _ | .uint _ | .float _ | .wide _ | .string _ | .instant _ | .uuid _
  | .array _ => exact leaf _ fun fields => Value.noConfusion
termination_by structural value

theorem induction_fields_all {motive : Value → Prop}
    (leaf : ∀ value, value.NotObject → motive value)
    (object : ∀ fields, (∀ field ∈ fields, motive field.2) → motive (Value.object fields))
    (fields : List (String × Value)) : ∀ field ∈ fields, motive field.2 := by
  match fields with
  | [] => exact List.forall_mem_nil _
  | (_, value) :: rest =>
    exact List.forall_mem_cons.2
      ⟨induction_fields leaf object value, induction_fields_all leaf object rest⟩
termination_by structural fields
end

/-! ## Positions -/

/-- `value.Leads position names inner`: from `value` one comes to `inner` by going into the field of an
object with each number of the position, and these are the names on the way. -/
inductive Leads : Value → List Nat → List String → Value → Prop
  | here (value : Value) : Leads value [] [] value
  | into {fields : Fields} {i : Nat} {name : String} {value inner : Value} {position : List Nat}
    {names : List String} (hf : fields[i]? = some (name, value)) (h : Leads value position names inner) :
    Leads (object fields) (i :: position) (name :: names) inner

section
variable {P : List Nat → List String → Value → Prop} {value : Value} {fields : Fields}

theorem forall_leads_iff_of_notObject (h : value.NotObject) :
    (∀ position names inner, value.Leads position names inner → P position names inner) ↔
      P [] [] value := by
  constructor
  · intro hp
    exact hp [] [] value (.here value)
  · intro hp position names inner hl
    cases hl with
    | here => exact hp
    | into => exact absurd rfl (h _)

theorem forall_leads_object_iff :
    (∀ position names inner, (object fields).Leads position names inner → P position names inner) ↔
      P [] [] (object fields) ∧ ∀ i field, fields[i]? = some field →
        ∀ position names inner, field.2.Leads position names inner →
          P (i :: position) (field.1 :: names) inner := by
  constructor
  · intro hp
    exact ⟨hp [] [] _ (.here _), fun i field hf position names inner hl =>
      hp _ _ inner (.into hf hl)⟩
  · rintro ⟨h0, hp⟩ position names inner hl
    cases hl with
    | here => exact h0
    | into hf hl => exact hp _ _ hf _ _ _ hl
end

theorem Leads.unique {value inner inner' : Value} {position : List Nat} {names names' : List String}
    (h : value.Leads position names inner) (h' : value.Leads position names' inner') :
    names = names' ∧ inner = inner' := by
  induction h generalizing names' with
  | here => cases h' with | here => exact ⟨rfl, rfl⟩
  | into hf _ ih =>
    cases h' with
    | into hf' h' =>
      cases hf.symm.trans hf'
      obtain ⟨rfl, rfl⟩ := ih h'
      exact ⟨rfl, rfl⟩

/-! ## Names and depth -/

theorem fieldsNamed_iff (fields : Fields) :
    FieldsNamed fields ↔ ∀ field ∈ fields, field.1 ≠ "" ∧ field.2.Named := by
  induction fields with
  | nil => simp [FieldsNamed]
  | cons field rest ih =>
    obtain ⟨name, value⟩ := field
    rw [FieldsNamed, List.forall_mem_cons, ih, and_assoc]

theorem fieldsMapDepth_le_iff (fields : Fields) (limit : Nat) :
    fieldsMapDepth fields ≤ limit ↔ ∀ field ∈ fields, field.2.mapDepth ≤ limit := by
  induction fields with
  | nil => simp [fieldsMapDepth]
  | cons field rest ih =>
    obtain ⟨name, value⟩ := field
    rw [fieldsMapDepth, List.forall_mem_cons, Nat.max_le, ih]

/-- Fields are named when the names on every way from them have characters and no way comes to an
empty object, if this is so for the values of the fields. -/
theorem fieldsNamed_iff_leads {fields : Fields} (h : ∀ field ∈ fields,
      (field.2.Named ↔ ∀ position names inner, field.2.Leads position names inner →
        "" ∉ names ∧ inner ≠ object [])) :
    FieldsNamed fields ↔ ∀ (i : Nat) (field : String × Value), fields[i]? = some field →
      ∀ position names inner, field.2.Leads position names inner →
        "" ∉ field.1 :: names ∧ inner ≠ object [] := by
  rw [fieldsNamed_iff]
  constructor
  · intro hf i field hi position names inner hl
    have hm := List.mem_of_getElem? hi
    obtain ⟨hnames, hinner⟩ := (h field hm).1 (hf field hm).2 position names inner hl
    exact ⟨List.not_mem_cons_of_ne_of_not_mem (Ne.symm (hf field hm).1) hnames, hinner⟩
  · intro hf field hm
    obtain ⟨i, hi⟩ := List.mem_iff_getElem?.1 hm
    refine ⟨?_, (h field hm).2 fun position names inner hl => ?_⟩
    · exact fun he => (hf i field hi [] [] _ (.here _)).1 (he ▸ List.mem_cons_self)
    · obtain ⟨hnames, hinner⟩ := hf i field hi position names inner hl
      exact ⟨fun hn => hnames (List.mem_cons_of_mem _ hn), hinner⟩

/-- The names on the way have characters, and no object that one comes to is empty. -/
theorem named_iff (value : Value) :
    value.Named ↔ ∀ position names inner, value.Leads position names inner →
      "" ∉ names ∧ inner ≠ object [] := by
  induction value using induction_fields with
  | leaf value h =>
    rw [forall_leads_iff_of_notObject h]
    simp [(named_of_notObject h).1, h []]
  | object fields ih =>
    rw [forall_leads_object_iff, Named, fieldsNamed_iff_leads ih]
    simp

/-- An object that one comes to is one level deeper than the position has numbers. -/
theorem mapDepth_le_iff (value : Value) (limit : Nat) :
    value.mapDepth ≤ limit ↔ ∀ position names inner, value.Leads position names inner →
      ∀ fields, inner = object fields → position.length + 1 ≤ limit := by
  induction value using induction_fields generalizing limit with
  | leaf value h =>
    rw [forall_leads_iff_of_notObject h, (named_of_notObject h).2]
    simp [h _]
  | object fields ih =>
    rw [forall_leads_object_iff, mapDepth]
    cases limit with
    | zero => simp
    | succ limit =>
      rw [Nat.succ_le_succ_iff, fieldsMapDepth_le_iff]
      simp only [List.length_nil, List.length_cons, Nat.succ_le_succ_iff, Nat.zero_le, implies_true,
        true_and]
      constructor
      · intro hf i field hi
        have hm := List.mem_of_getElem? hi
        exact (ih field hm limit).1 (hf field hm)
      · intro hf field hm
        obtain ⟨i, hi⟩ := List.mem_iff_getElem?.1 hm
        exact (ih field hm limit).2 (hf i field hi)

end Value

/-! ## Spots -/

/-- A leaf with its position and the names on the way to it. -/
structure Spot where
  position : List Nat
  names : List String
  value : Value

/-- A spot of a field's value, seen from the map of the field. -/
def Spot.under (i : Nat) (name : String) (spot : Spot) : Spot :=
  ⟨i :: spot.position, name :: spot.names, spot.value⟩

namespace Value

mutual
/-- The leaves of a value, in depth-first order. -/
def spots : Value → List Spot
  | object fields => fieldSpots 0 fields
  | leaf => [⟨[], [], leaf⟩]

/-- The leaves of the fields of a map, which are counted from a number. -/
def fieldSpots (i : Nat) : List (String × Value) → List Spot
  | [] => []
  | (name, value) :: rest => (spots value).map (Spot.under i name) ++ fieldSpots (i + 1) rest
end

theorem spots_of_notObject {value : Value} (h : value.NotObject) : value.spots = [⟨[], [], value⟩] := by
  cases value with
  | object fields => exact absurd rfl (h fields)
  | _ => rfl

theorem mem_fieldSpots_iff {i : Nat} {fields : Fields} {spot : Spot} :
    spot ∈ fieldSpots i fields ↔ ∃ (j : Nat) (field : String × Value), fields[j]? = some field ∧
      ∃ below ∈ field.2.spots, spot = below.under (i + j) field.1 := by
  induction fields generalizing i with
  | nil => simp [fieldSpots]
  | cons first rest ih =>
    obtain ⟨name, value⟩ := first
    rw [fieldSpots, List.mem_append, List.mem_map, ih]
    constructor
    · rintro (⟨below, hb, rfl⟩ | ⟨j, field, hf, below, hb, rfl⟩)
      · exact ⟨0, _, rfl, below, hb, rfl⟩
      · exact ⟨j + 1, field, hf, below, hb, by rw [Nat.add_assoc, Nat.add_comm 1]⟩
    · rintro ⟨j, field, hf, below, hb, rfl⟩
      cases j with
      | zero =>
        cases hf
        exact .inl ⟨below, hb, rfl⟩
      | succ j => exact .inr ⟨j, field, hf, below, hb, by rw [Nat.add_assoc, Nat.add_comm 1]⟩

/-- A spot is where a leaf is. -/
theorem mem_spots_iff (value : Value) (spot : Spot) :
    spot ∈ value.spots ↔
      value.Leads spot.position spot.names spot.value ∧ spot.value.NotObject := by
  induction value using induction_fields generalizing spot with
  | leaf value h =>
    rw [spots_of_notObject h, List.mem_singleton]
    obtain ⟨position, names, inner⟩ := spot
    constructor
    · rintro ⟨⟩
      exact ⟨.here value, h⟩
    · rintro ⟨hl, -⟩
      cases hl with
      | here => rfl
      | into => exact absurd rfl (h _)
  | object fields ih =>
    rw [spots, mem_fieldSpots_iff]
    constructor
    · rintro ⟨j, field, hf, below, hb, rfl⟩
      obtain ⟨hl, hn⟩ := (ih field (List.mem_of_getElem? hf) below).1 hb
      exact ⟨.into (by rwa [Nat.zero_add]) hl, hn⟩
    · obtain ⟨position, names, inner⟩ := spot
      rintro ⟨hl, hn⟩
      cases hl with
      | here => exact absurd rfl (hn fields)
      | @into _ i name value _ position names hf hl =>
        have hb := (ih _ (List.mem_of_getElem? hf) ⟨position, names, inner⟩).2 ⟨hl, hn⟩
        exact ⟨i, (name, value), hf, _, hb, by rw [Nat.zero_add]; rfl⟩

/-- Spots come in the order of their positions. -/
theorem pairwise_spots (value : Value) : value.spots.Pairwise fun a b => a.position < b.position := by
  induction value using induction_fields with
  | leaf value h =>
    rw [spots_of_notObject h]
    exact List.pairwise_singleton _ _
  | object fields ih =>
    rw [spots]
    generalize 0 = i
    induction fields generalizing i with
    | nil => exact .nil
    | cons field rest ihr =>
      obtain ⟨name, value⟩ := field
      obtain ⟨hv, hr⟩ := List.forall_mem_cons.1 ih
      rw [fieldSpots, List.pairwise_append]
      refine ⟨?_, ihr hr (i + 1), ?_⟩
      · rw [List.pairwise_map]
        exact hv.imp fun h => List.cons_lt_cons_iff.2 (.inr ⟨rfl, h⟩)
      · -- Whatever comes from a later field has a larger number in front.
        intro a ha b hb
        obtain ⟨above, -, rfl⟩ := List.mem_map.1 ha
        obtain ⟨j, field, -, below, -, rfl⟩ := mem_fieldSpots_iff.1 hb
        exact List.cons_lt_cons_iff.2 (.inl (by omega))

theorem fieldsDotted_eq_map (parent? : Option String) (i : Nat) {fields : Fields}
    (h : ∀ field ∈ fields, ∀ path, field.2.dotted path =
      field.2.spots.map fun spot => (pathFrom (some path) spot.names, spot.value)) :
    fieldsDotted parent? fields =
      (fieldSpots i fields).map fun spot => (pathFrom parent? spot.names, spot.value) := by
  induction fields generalizing i with
  | nil => rfl
  | cons field rest ih =>
    obtain ⟨name, value⟩ := field
    obtain ⟨hv, hr⟩ := List.forall_mem_cons.1 h
    rw [fieldsDotted, fieldSpots, List.map_append, List.map_map, ih (i + 1) hr, hv]
    rfl

theorem dotted_eq_map (value : Value) (path : String) :
    value.dotted path = value.spots.map fun spot => (pathFrom (some path) spot.names, spot.value) := by
  induction value using induction_fields generalizing path with
  | leaf value h =>
    rw [dotted_of_notObject h, spots_of_notObject h]
    rfl
  | object fields ih => exact fieldsDotted_eq_map (some path) 0 ih

end Value

/-! ## Leaves -/

namespace Fields

/-- In a field map a leaf stands at a position: it is no object, and these are the names on the way. -/
def LeafAt (fields : Fields) (position : List Nat) (names : List String) (value : Value) : Prop :=
  (Value.object fields).Leads position names value ∧ value.NotObject

/-- No name in a field map and no map nested in it is empty, at most 32 maps nest, the outermost
included, and the names on the way to different leaves are not the same when joined by dots. -/
structure Spellable (fields : Fields) : Prop where
  named : ∀ position names value, (Value.object fields).Leads position names value → "" ∉ names
  filled : ∀ position names inner, (Value.object fields).Leads position names (.object inner) →
    position ≠ [] → inner ≠ []
  nesting : ∀ position names inner, (Value.object fields).Leads position names (.object inner) →
    position.length + 1 ≤ 32
  apart : ∀ position position' names names' value value', fields.LeafAt position names value →
    fields.LeafAt position' names' value' → ".".intercalate names = ".".intercalate names' →
    position = position'

/-- The leaves of a field map are listed: in the order of their positions, each once, by the names on
the way joined by dots. -/
def Listed (fields found : Fields) : Prop :=
  ∃ positions : List (List Nat), positions.Pairwise (· < ·) ∧
    (∀ position, position ∈ positions ↔ ∃ names value, fields.LeafAt position names value) ∧
    List.Forall₂ (fun position leaf => ∃ names, fields.LeafAt position names leaf.2 ∧
      leaf.1 = ".".intercalate names) positions found

theorem dotted_eq_spots (fields : Fields) :
    fields.dotted =
      (Value.object fields).spots.map fun spot => (".".intercalate spot.names, spot.value) := by
  rw [dotted, Value.fieldsDotted_eq_map none 0 fun field _ => Value.dotted_eq_map field.2]
  simp only [pathFrom_none]
  rfl

theorem listed_dotted (fields : Fields) : fields.Listed fields.dotted := by
  refine ⟨(Value.object fields).spots.map Spot.position, ?_, fun position => ?_, ?_⟩
  · exact List.pairwise_map.2 (Value.pairwise_spots _)
  · rw [List.mem_map]
    constructor
    · rintro ⟨spot, hs, rfl⟩
      exact ⟨spot.names, spot.value, (Value.mem_spots_iff _ _).1 hs⟩
    · rintro ⟨names, value, hl⟩
      exact ⟨⟨position, names, value⟩, (Value.mem_spots_iff _ _).2 hl, rfl⟩
  · rw [dotted_eq_spots, List.forall₂_map_left_iff, List.forall₂_map_right_iff, List.forall₂_same]
    exact fun spot hs => ⟨spot.names, (Value.mem_spots_iff _ _).1 hs, rfl⟩

/-- Paths are distinct when no two positions of leaves have the same. -/
theorem nodup_keys_dotted_iff (fields : Fields) :
    fields.dotted.keys.Nodup ↔
      ∀ position position' names names' value value', fields.LeafAt position names value →
        fields.LeafAt position' names' value' → ".".intercalate names = ".".intercalate names' →
        position = position' := by
  have hnodup : (Value.object fields).spots.Nodup :=
    (Value.pairwise_spots (.object fields)).imp fun {a b} h he => by
      rw [he] at h
      exact List.lt_irrefl _ h
  rw [dotted_eq_spots, Entries.keys, List.map_map, List.nodup_map_iff_inj_on hnodup]
  constructor
  · intro h position position' names names' value value' hl hl' he
    have hs := (Value.mem_spots_iff (.object fields) ⟨position, names, value⟩).2 hl
    have hs' := (Value.mem_spots_iff (.object fields) ⟨position', names', value'⟩).2 hl'
    exact congrArg Spot.position (h _ hs _ hs' he)
  · rintro h ⟨position, names, value⟩ hs ⟨position', names', value'⟩ hs' he
    have hl := (Value.mem_spots_iff _ _).1 hs
    have hl' := (Value.mem_spots_iff _ _).1 hs'
    obtain rfl := h position position' names names' value value' hl hl' he
    obtain ⟨rfl, rfl⟩ := hl.1.unique hl'.1
    rfl

theorem fieldsNamed_iff_named_and_filled (fields : Fields) :
    Value.FieldsNamed fields ↔
      ∀ position names value, (Value.object fields).Leads position names value →
        "" ∉ names ∧ (position ≠ [] → value ≠ .object []) := by
  rw [Value.forall_leads_object_iff, Value.fieldsNamed_iff_leads fun field _ => field.2.named_iff]
  simp

/-- The field maps that have leaves, by their positions. -/
theorem wellShaped_iff (fields : Fields) : fields.WellShaped ↔ fields.Spellable := by
  have hdepth : fields.mapDepth ≤ 32 ↔ ∀ position names inner,
      (Value.object fields).Leads position names (.object inner) → position.length + 1 ≤ 32 := by
    refine (Value.mapDepth_le_iff (.object fields) 32).trans ?_
    exact ⟨fun h position names inner hl => h position names _ hl inner rfl,
      fun h position names _ hl inner he => h position names inner (he ▸ hl)⟩
  constructor
  · intro h
    have hnamed := (fieldsNamed_iff_named_and_filled fields).1 h.named
    refine ⟨fun position names value hl => (hnamed position names value hl).1, ?_,
      hdepth.1 h.mapDepth_le, (nodup_keys_dotted_iff fields).1 h.distinct⟩
    rintro position names inner hl hp rfl
    exact (hnamed position names _ hl).2 hp rfl
  · intro h
    refine ⟨(fieldsNamed_iff_named_and_filled fields).2 fun position names value hl => ?_,
      hdepth.2 h.nesting, (nodup_keys_dotted_iff fields).2 h.apart⟩
    refine ⟨h.named position names value hl, ?_⟩
    rintro hp rfl
    exact h.filled position names [] hl hp rfl

/-- Leaves make up a field map that has them for its leaves. -/
theorem leaves_ofList {fields found : Fields} (h : leaves fields = .ok found) :
    leaves (Entries.ofList found) = .ok found := by
  have hd := distinct_leaves h
  have hf := notObject_of_leaves h
  obtain ⟨hw, rfl⟩ := leaves_eq_ok_iff.1 h
  rw [Entries.ofList_of_distinct hd]
  exact leaves_of_flat hf (path_ne_empty_of_fieldsDotted none fields hw.named) hd

end Fields

/-- Selectors whose fields have the same leaves are sent as the same text. -/
theorem Selector.wire_ofList {fields found : Fields} (op : Comparison)
    (h : fields.leaves = .ok found) :
    Selector.wire ⟨op, Entries.ofList found⟩ = Selector.wire ⟨op, fields⟩ := by
  have hagain := Fields.leaves_ofList h
  have hempty : (Entries.ofList found).isEmpty = fields.isEmpty := by
    rw [Entries.ofList_of_distinct (Fields.distinct_leaves h), Bool.eq_iff_iff, List.isEmpty_iff,
      List.isEmpty_iff]
    constructor
    · rintro rfl
      exact Classical.not_not.1 fun hne => Fields.leaves_ne_nil hne h rfl
    · rintro rfl
      cases h
      rfl
  unfold Selector.wire
  simp only [hempty, hagain, h]

/-- A field map has leaves exactly when it is spellable, and they are listed then: under paths that are
distinct and not empty, with values that are no objects. The map of these fields has the same leaves,
and in a selector it is sent as the same text. -/
theorem Fields.leaves_exact (fields : Fields) :
    ((∃ found, fields.leaves = .ok found) ↔ fields.Spellable) ∧
      ∀ found, fields.leaves = .ok found →
        fields.Listed found ∧ found.keys.Nodup ∧ (∀ leaf ∈ found, leaf.1 ≠ "" ∧ leaf.2.NotObject) ∧
        leaves (Entries.ofList found) = .ok found ∧
        ∀ op, (Filter.selector ⟨op, Entries.ofList found⟩).encode =
          (Filter.selector ⟨op, fields⟩).encode := by
  refine ⟨?_, fun found h => ?_⟩
  · simp only [leaves_eq_ok_iff, exists_and_left, exists_eq, and_true]
    exact wellShaped_iff fields
  · refine ⟨?_, distinct_leaves h, fun leaf hl => ⟨?_, notObject_of_leaves h leaf hl⟩,
      leaves_ofList h, fun op => ?_⟩
    · obtain ⟨-, rfl⟩ := leaves_eq_ok_iff.1 h
      exact listed_dotted fields
    · obtain ⟨hw, rfl⟩ := leaves_eq_ok_iff.1 h
      exact path_ne_empty_of_fieldsDotted none fields hw.named leaf hl
    · rw [Filter.encode_eq_wire, Filter.encode_eq_wire, Filter.wire, Selector.wire_ofList op h]
      rfl

end DocWire
