import DocWire.Proofs.Value.Leaves

/-!
# Which field maps have leaves

`Fields.dotted` lists what stands below a field map under dotted paths, without asking whether it
may be sent. `leaves` gives this list for well-shaped maps and fails for all others:
`leaves_eq_ok_iff`, and `kind_of_leaves` for the error.
-/
set_option autoImplicit false

namespace DocWire

mutual
/-- What stands at a path and below, save for the objects on the way. -/
def Value.dotted (path : String) : Value → Fields
  | .object fields => Value.fieldsDotted (some path) fields
  | leaf => [(path, leaf)]

def Value.fieldsDotted (parent? : Option String) : List (String × Value) → Fields
  | [] => []
  | (name, value) :: rest =>
    Value.dotted (childPath parent? name) value ++ Value.fieldsDotted parent? rest
end

mutual
/-- No map in a value is empty, and all names in it have characters. Arrays are not entered. -/
def Value.Named : Value → Prop
  | .object fields => fields ≠ [] ∧ Value.FieldsNamed fields
  | _ => True

def Value.FieldsNamed : List (String × Value) → Prop
  | [] => True
  | (name, value) :: rest => name ≠ "" ∧ Value.Named value ∧ Value.FieldsNamed rest
end

mutual
/-- How many maps nest in a value. Arrays are not entered. -/
def Value.mapDepth : Value → Nat
  | .object fields => Value.fieldsMapDepth fields + 1
  | _ => 0

def Value.fieldsMapDepth : List (String × Value) → Nat
  | [] => 0
  | (_, value) :: rest => max (Value.mapDepth value) (Value.fieldsMapDepth rest)
end

namespace Fields

/-- The leaves of a field map, in depth-first order. -/
def dotted (fields : Fields) : Fields := Value.fieldsDotted none fields

/-- How many maps nest in a field map, itself included. -/
def mapDepth (fields : Fields) : Nat := Value.fieldsMapDepth fields + 1

/-- A field map that can be spelled as leaves: no name and no nested map in it is empty, at most 32
maps nest, and no two leaves have the same path. -/
structure WellShaped (fields : Fields) : Prop where
  named : Value.FieldsNamed fields
  mapDepth_le : fields.mapDepth ≤ 32
  distinct : fields.dotted.keys.Nodup

theorem distinct_snoc_iff {path : String} {value : Value} {found : Fields} (hd : found.Distinct) :
    Entries.Distinct (found ++ [(path, value)]) ↔ path ∉ Entries.keys found := by
  have hkeys : Entries.keys (found ++ [(path, value)]) = Entries.keys found ++ [path] :=
    List.map_append
  rw [Entries.Distinct, hkeys, List.nodup_append]
  constructor
  · rintro ⟨-, -, hne⟩ hmem
    exact hne path hmem path (List.mem_singleton_self path) rfl
  · intro hfresh
    refine ⟨hd, by simp, fun a ha b hb => ?_⟩
    rw [List.mem_singleton] at hb
    rintro rfl
    exact hfresh (hb ▸ ha)

theorem addLeaf_eq_ok_iff {path : String} {value : Value} {found found' : Fields}
    (hd : found.Distinct) :
    addLeaf path value found = .ok found' ↔
      Entries.Distinct (found ++ [(path, value)]) ∧ found' = found ++ [(path, value)] := by
  unfold addLeaf Entries.contains
  rw [distinct_snoc_iff hd, ← Entries.get?_eq_none_iff]
  cases Entries.get? path found <;> simp [eq_comm]

theorem distinct_of_append {found more : Fields} (h : Entries.Distinct (found ++ more)) :
    Entries.Distinct found := by
  unfold Entries.Distinct Entries.keys at *
  rw [List.map_append] at h
  exact (List.nodup_append.1 h).1

mutual
theorem valueLeaves_eq_ok_iff (depth : Nat) (path : String) (found : Fields) (value : Value)
    (found' : Fields) (hl : depth ≤ pathDepthLimit + 1) (hd : found.Distinct) :
    valueLeaves depth path found value = .ok found' ↔
      value.Named ∧ depth + value.mapDepth ≤ pathDepthLimit + 1 ∧
        Entries.Distinct (found ++ value.dotted path) ∧ found' = found ++ value.dotted path := by
  match value with
  | .object fields =>
    unfold valueLeaves Value.Named Value.mapDepth Value.dotted
    by_cases he : fields = []
    · simp [he]
    by_cases hdeep : pathDepthLimit < depth
    · simp [he, hdeep]
      omega
    have hfields := fieldLeaves_eq_ok_iff depth (some path) found fields found' (by omega) hd
    simp only [he, hdeep, List.isEmpty_iff, if_false, hfields, not_false_eq_true, true_and, ne_eq]
    have hsum : depth + (Value.fieldsMapDepth fields + 1) ≤ pathDepthLimit + 1 ↔
        depth + Value.fieldsMapDepth fields ≤ pathDepthLimit := by omega
    rw [hsum]
  | .null | .bool _ | .int _ | .uint _ | .float _ | .wide _ | .string _ | .instant _ | .uuid _
  | .array _ =>
    unfold valueLeaves Value.Named Value.mapDepth Value.dotted
    simp only [addLeaf_eq_ok_iff hd, Nat.add_zero, hl, true_and]
termination_by structural value

theorem fieldLeaves_eq_ok_iff (depth : Nat) (parent? : Option String) (found : Fields)
    (fields : List (String × Value)) (found' : Fields) (hl : depth ≤ pathDepthLimit)
    (hd : found.Distinct) :
    fieldLeaves depth parent? found fields = .ok found' ↔
      Value.FieldsNamed fields ∧ depth + Value.fieldsMapDepth fields ≤ pathDepthLimit ∧
        Entries.Distinct (found ++ Value.fieldsDotted parent? fields) ∧
        found' = found ++ Value.fieldsDotted parent? fields := by
  match fields with
  | [] =>
    unfold fieldLeaves Value.FieldsNamed Value.fieldsMapDepth Value.fieldsDotted
    simp [hl, hd, eq_comm]
  | (name, value) :: rest =>
    unfold fieldLeaves Value.FieldsNamed Value.fieldsMapDepth Value.fieldsDotted
    by_cases hn : name = ""
    · simp [hn]
    rw [if_neg hn, bind_eq_ok_iff]
    have hvalue := fun middle =>
      valueLeaves_eq_ok_iff (depth + 1) (childPath parent? name) found value middle (by omega) hd
    constructor
    · rintro ⟨middle, hm, hr⟩
      obtain ⟨hnamed, hdepth, hdist, rfl⟩ := (hvalue middle).1 hm
      obtain ⟨hrnamed, hrdepth, hrdist, rfl⟩ :=
        (fieldLeaves_eq_ok_iff depth parent? _ rest found' hl hdist).1 hr
      rw [List.append_assoc] at hrdist
      exact ⟨⟨hn, hnamed, hrnamed⟩, by omega, hrdist, List.append_assoc ..⟩
    · rintro ⟨⟨-, hnamed, hrnamed⟩, hdepth, hdist, rfl⟩
      rw [← List.append_assoc] at hdist ⊢
      have hmid := distinct_of_append hdist
      refine ⟨_, (hvalue _).2 ⟨hnamed, by omega, hmid, rfl⟩, ?_⟩
      exact (fieldLeaves_eq_ok_iff depth parent? _ rest _ hl hmid).2
        ⟨hrnamed, by omega, hdist, rfl⟩
termination_by structural fields
end

/-- A field map has leaves exactly when it is well shaped, and they are what is listed below it. -/
theorem leaves_eq_ok_iff {fields found : Fields} :
    leaves fields = .ok found ↔ fields.WellShaped ∧ found = fields.dotted := by
  have h := fieldLeaves_eq_ok_iff 1 none [] fields found (by decide) Entries.distinct_nil
  rw [List.nil_append] at h
  have hdepth : 1 + Value.fieldsMapDepth fields ≤ pathDepthLimit ↔ fields.mapDepth ≤ 32 := by
    unfold mapDepth pathDepthLimit
    rw [Nat.add_comm]
  rw [leaves, h, hdepth]
  constructor
  · rintro ⟨hn, hm, hd, he⟩
    exact ⟨⟨hn, hm, hd⟩, he⟩
  · rintro ⟨⟨hn, hm, hd⟩, he⟩
    exact ⟨hn, hm, hd, he⟩

/-! ## Leaves of leaves -/

theorem childPath_ne_empty (parent? : Option String) {name : String} (hn : name ≠ "") :
    childPath parent? name ≠ "" := by
  cases parent? with
  | none => exact hn
  | some parent =>
    intro he
    have hlen := congrArg String.length he
    simp [childPath, String.length_append] at hlen

mutual
theorem path_ne_empty_of_dotted (path : String) (value : Value) (hp : path ≠ "") (hv : value.Named) :
    ∀ leaf ∈ value.dotted path, leaf.1 ≠ "" := by
  match value with
  | .object fields =>
    unfold Value.dotted
    exact path_ne_empty_of_fieldsDotted (some path) fields hv.2
  | .null | .bool _ | .int _ | .uint _ | .float _ | .wide _ | .string _ | .instant _ | .uuid _
  | .array _ =>
    intro leaf hl
    rw [List.mem_singleton.1 hl]
    exact hp
termination_by structural value

theorem path_ne_empty_of_fieldsDotted (parent? : Option String) (fields : List (String × Value))
    (hf : Value.FieldsNamed fields) : ∀ leaf ∈ Value.fieldsDotted parent? fields, leaf.1 ≠ "" := by
  match fields with
  | [] => exact fun leaf hl => absurd hl List.not_mem_nil
  | (name, value) :: rest =>
    intro leaf hl
    rcases List.mem_append.1 hl with hl | hl
    · exact path_ne_empty_of_dotted _ value (childPath_ne_empty parent? hf.1) hf.2.1 leaf hl
    · exact path_ne_empty_of_fieldsDotted parent? rest hf.2.2 leaf hl
termination_by structural fields
end

/-- Without objects among them, fields of different names are their own leaves. -/
theorem leaves_of_flat {fields : Fields} (hf : fields.Flat) (hn : ∀ field ∈ fields, field.1 ≠ "")
    (hd : fields.Distinct) : leaves fields = .ok fields := by
  have hshape : Value.FieldsNamed fields ∧ Value.fieldsMapDepth fields = 0 ∧
      Value.fieldsDotted none fields = fields := by
    clear hd
    induction fields with
    | nil => exact ⟨trivial, rfl, rfl⟩
    | cons field rest ih =>
      obtain ⟨name, value⟩ := field
      obtain ⟨hnamed, hdepth, hdotted⟩ := ih (fun leaf hl => hf leaf (List.mem_cons_of_mem _ hl))
        (fun leaf hl => hn leaf (List.mem_cons_of_mem _ hl))
      have hname := hn (name, value) (List.mem_cons_self ..)
      have hvalue := hf (name, value) (List.mem_cons_self ..)
      rw [Value.FieldsNamed, Value.fieldsMapDepth, Value.fieldsDotted, hdepth, hdotted]
      cases value with
      | object fields => exact absurd rfl (hvalue fields)
      | _ => exact ⟨⟨hname, trivial, hnamed⟩, rfl, rfl⟩
  obtain ⟨hnamed, hdepth, hdotted⟩ := hshape
  have hkeys : fields.dotted.keys.Nodup := by
    rw [dotted, hdotted]
    exact hd
  refine leaves_eq_ok_iff.2 ⟨⟨hnamed, ?_, hkeys⟩, hdotted.symm⟩
  rw [mapDepth, hdepth]
  decide

theorem leaves_singleton {name : String} {value : Value} (hn : name ≠ "") (hv : value.NotObject) :
    leaves [(name, value)] = .ok [(name, value)] :=
  leaves_of_flat (List.forall_mem_singleton.2 hv) (List.forall_mem_singleton.2 hn)
    (List.pairwise_singleton _ name)

/-! ## Errors -/

theorem kind_of_addLeaf {path : String} {value : Value} {found : Fields} {e : Failure}
    (h : addLeaf path value found = .error e) : e.kind = .filterEncoding := by
  unfold addLeaf at h
  split at h
  · cases h
    rfl
  · cases h

mutual
theorem kind_of_valueLeaves (depth : Nat) (path : String) (found : Fields) (value : Value)
    (e : Failure) (h : valueLeaves depth path found value = .error e) :
    e.kind = .filterEncoding := by
  match value with
  | .object fields =>
    unfold valueLeaves at h
    split at h
    · cases h
      rfl
    · split at h
      · cases h
        rfl
      · exact kind_of_fieldLeaves depth (some path) found fields e h
  | .null | .bool _ | .int _ | .uint _ | .float _ | .wide _ | .string _ | .instant _ | .uuid _
  | .array _ => exact kind_of_addLeaf h
termination_by structural value

theorem kind_of_fieldLeaves (depth : Nat) (parent? : Option String) (found : Fields)
    (fields : List (String × Value)) (e : Failure)
    (h : fieldLeaves depth parent? found fields = .error e) : e.kind = .filterEncoding := by
  match fields with
  | [] =>
    unfold fieldLeaves at h
    cases h
  | (name, value) :: rest =>
    unfold fieldLeaves at h
    split at h
    · cases h
      rfl
    · rcases bind_eq_error_iff.1 h with h | ⟨middle, -, h⟩
      · exact kind_of_valueLeaves (depth + 1) (childPath parent? name) found value e h
      · exact kind_of_fieldLeaves depth parent? middle rest e h
termination_by structural fields
end

/-- A field map without leaves is at fault in its shape, never in its values. -/
theorem kind_of_leaves {fields : Fields} {e : Failure} (h : leaves fields = .error e) :
    e.kind = .filterEncoding :=
  kind_of_fieldLeaves 1 none [] fields e h

end Fields
end DocWire
