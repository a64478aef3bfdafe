import DocWire.Value.Leaves
import DocWire.Proofs.Results

/-!
# What leaves are

Objects are no leaves: whatever is found below the fields of a map is a value of another kind. Every
field has a leaf of its own. Main statements: `notObject_of_leaves` and `leaves_ne_nil`.
-/
set_option autoImplicit false

namespace DocWire

/-- A value is no object. -/
def Value.NotObject (value : Value) : Prop := ∀ fields, value ≠ .object fields

theorem Value.notObject_of_integer? {value : Value} {n : Int} (h : value.integer? = some n) :
    value.NotObject := by
  rintro fields rfl
  cases h

namespace Fields

/-- No value in a field map is an object. -/
def Flat (fields : Fields) : Prop := ∀ leaf ∈ fields, leaf.2.NotObject

theorem flat_of_addLeaf {path : String} {value : Value} {found found' : Fields}
    (hv : value.NotObject) (hf : Flat found) (h : addLeaf path value found = .ok found') :
    Flat found' := by
  unfold addLeaf at h
  split at h
  · cases h
  · cases h
    intro leaf hl
    rcases List.mem_append.1 hl with hl | hl
    · exact hf leaf hl
    · rw [List.mem_singleton] at hl
      exact hl ▸ hv

mutual
theorem flat_of_valueLeaves (depth : Nat) (path : String) (found : Fields) (value : Value)
    (found' : Fields) (hf : Flat found) (h : valueLeaves depth path found value = .ok found') :
    Flat found' := by
  match value with
  | .object fields =>
    unfold valueLeaves at h
    split at h
    · cases h
    · split at h
      · cases h
      · exact flat_of_fieldLeaves depth (some path) found fields found' hf h
  | .null | .bool _ | .int _ | .uint _ | .float _ | .wide _ | .string _ | .instant _ | .uuid _
  | .array _ => exact flat_of_addLeaf (fun fields => Value.noConfusion) hf h
termination_by structural value

theorem flat_of_fieldLeaves (depth : Nat) (parent? : Option String) (found : Fields)
    (fields : List (String × Value)) (found' : Fields) (hf : Flat found)
    (h : fieldLeaves depth parent? found fields = .ok found') : Flat found' := by
  match fields with
  | [] =>
    unfold fieldLeaves at h
    cases h
    exact hf
  | (name, value) :: rest =>
    unfold fieldLeaves at h
    split at h
    · cases h
    · obtain ⟨middle, hm, h⟩ := bind_eq_ok_iff.1 h
      have hf' := flat_of_valueLeaves (depth + 1) (childPath parent? name) found value middle hf hm
      exact flat_of_fieldLeaves depth parent? middle rest found' hf' h
termination_by structural fields
end

/-- A leaf is no object. -/
theorem notObject_of_leaves {fields found : Fields} (h : leaves fields = .ok found) : Flat found :=
  flat_of_fieldLeaves 1 none [] fields found (fun _ hl => absurd hl List.not_mem_nil) h

/-! ## Every field has a leaf -/

theorem length_of_addLeaf {path : String} {value : Value} {found found' : Fields}
    (h : addLeaf path value found = .ok found') : found.length < found'.length := by
  unfold addLeaf at h
  split at h
  · cases h
  · cases h
    rw [List.length_append, List.length_singleton]
    exact Nat.lt_succ_self _

mutual
theorem length_of_valueLeaves (depth : Nat) (path : String) (found : Fields) (value : Value)
    (found' : Fields) (h : valueLeaves depth path found value = .ok found') :
    found.length < found'.length := by
  match value with
  | .object fields =>
    unfold valueLeaves at h
    split at h
    · cases h
    · rename_i hne
      split at h
      · cases h
      · have hl := length_of_fieldLeaves depth (some path) found fields found' h
        have hp : 0 < fields.length := List.length_pos_iff.2 (by simpa using hne)
        omega
  | .null | .bool _ | .int _ | .uint _ | .float _ | .wide _ | .string _ | .instant _ | .uuid _
  | .array _ => exact length_of_addLeaf h
termination_by structural value

theorem length_of_fieldLeaves (depth : Nat) (parent? : Option String) (found : Fields)
    (fields : List (String × Value)) (found' : Fields)
    (h : fieldLeaves depth parent? found fields = .ok found') :
    found.length + fields.length ≤ found'.length := by
  match fields with
  | [] =>
    unfold fieldLeaves at h
    cases h
    exact Nat.le_refl _
  | (name, value) :: rest =>
    unfold fieldLeaves at h
    split at h
    · cases h
    · obtain ⟨middle, hm, h⟩ := bind_eq_ok_iff.1 h
      have h1 := length_of_valueLeaves (depth + 1) (childPath parent? name) found value middle hm
      have h2 := length_of_fieldLeaves depth parent? middle rest found' h
      rw [List.length_cons]
      omega
termination_by structural fields
end

/-- A map with fields has leaves. -/
theorem leaves_ne_nil {fields found : Fields} (hf : fields ≠ []) (h : leaves fields = .ok found) :
    found ≠ [] := by
  have hl := length_of_fieldLeaves 1 none [] fields found h
  have hp := List.length_pos_iff.2 hf
  rw [List.length_nil] at hl
  exact List.length_pos_iff.1 (by omega)

end Fields
end DocWire
