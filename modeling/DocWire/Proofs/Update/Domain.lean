import DocWire.Proofs.Update.Payload
import DocWire.Proofs.Value.Dotted

/-!
# Which updates have a wire form

An update is encoded exactly when there is something in it, every field to remove has a name, and the
fields of each group can be spelled as leaves that the operator of the group takes. The conditions are
stated on the update itself, without the traversals of the encoder. Main statements:
`wire_eq_ok_iff`, when there is a wire form and which members it has, and `encode_exact`.
-/
set_option autoImplicit false

namespace DocWire

/-! ## Leaves -/

namespace Value

/-- A value that a field can be set to: nothing that it holds stands more than 32 array or object
steps down, and no float in it is infinite or NaN. -/
def Settable (value : Value) : Prop :=
  ∀ n inner, value.Holds n inner → n ≤ 32 ∧ ∀ x, inner = float x → x.isFinite = true

/-- A number that arithmetic is done with: an integer, or a float that is finite. -/
def Operand : Value → Prop
  | int _ => True
  | uint _ => True
  | wide _ => True
  | float x => x.isFinite = true
  | _ => False

/-- Written are the values that a field can be set to. -/
theorem wire_settable_iff (path : String) (value : Value) (json : Json) :
    value.wire .update path = .ok json ↔ value.Settable ∧ value.tree = json := by
  have hlimit : ∀ n, 0 + n ≤ pathDepthLimit ↔ n ≤ 32 := by
    unfold pathDepthLimit
    omega
  rw [wire, wireAt_eq_ok_iff]
  simp only [hlimit, sendable_update_iff, Settable]

theorem operand_iff (value : Value) : value.Operand ↔ value.isNumeric = true ∧ value.Settable := by
  have hscalar : ∀ {value : Value}, (∀ items, value ≠ array items) → (∀ fields, value ≠ object fields) →
      (value.Settable ↔ ∀ x, value = float x → x.isFinite = true) := fun hi ho =>
    (forall_holds_scalar_iff hi ho).trans (and_iff_right (Nat.zero_le 32))
  cases value with
  | null | bool _ | string _ | instant _ | uuid _ | array _ | object _ => simp [Operand, isNumeric]
  | int _ | uint _ | wide _ | float _ =>
    rw [hscalar (fun _ => Value.noConfusion) (fun _ => Value.noConfusion)]
    simp [Operand, isNumeric]

mutual
/-- A value without a wire form is at fault in its depth or in what it holds. -/
theorem kind_of_wireAt (role : WireRole) (path : String) (depth : Nat) (value : Value) (e : Failure)
    (h : wireAt role path depth value = .error e) :
    e.kind = .filterEncoding ∨ e.kind = .valueEncoding := by
  unfold wireAt at h
  split at h
  · cases h
    exact .inl rfl
  · match value with
    | .null | .bool _ | .int _ | .uint _ | .wide _ | .string _ | .instant _ | .uuid _ => cases h
    | .float x =>
      simp only at h
      split at h
      · cases h
      · cases h
        exact .inr rfl
    | .array items =>
      cases role with
      | selector =>
        cases h
        exact .inr rfl
      | update =>
        rcases bind_eq_error_iff.1 h with h | ⟨list, -, h⟩
        · exact kind_of_wireItems .update path (depth + 1) items e h
        · cases h
    | .object fields =>
      rcases bind_eq_error_iff.1 h with h | ⟨members, -, h⟩
      · exact kind_of_wireFields role path (depth + 1) fields e h
      · cases h
termination_by structural value

theorem kind_of_wireItems (role : WireRole) (path : String) (depth : Nat) (items : List Value)
    (e : Failure) (h : wireItems role path depth items = .error e) :
    e.kind = .filterEncoding ∨ e.kind = .valueEncoding := by
  match items with
  | [] => cases h
  | item :: rest =>
    unfold wireItems at h
    rcases bind_eq_error_iff.1 h with h | ⟨json, -, h⟩
    · exact kind_of_wireAt role path depth item e h
    · rcases bind_eq_error_iff.1 h with h | ⟨others, -, h⟩
      · exact kind_of_wireItems role path depth rest e h
      · cases h
termination_by structural items

theorem kind_of_wireFields (role : WireRole) (path : String) (depth : Nat)
    (fields : List (String × Value)) (e : Failure)
    (h : wireFields role path depth fields = .error e) :
    e.kind = .filterEncoding ∨ e.kind = .valueEncoding := by
  match fields with
  | [] => cases h
  | (name, value) :: rest =>
    unfold wireFields at h
    rcases bind_eq_error_iff.1 h with h | ⟨json, -, h⟩
    · exact kind_of_wireAt role path depth value e h
    · rcases bind_eq_error_iff.1 h with h | ⟨others, -, h⟩
      · exact kind_of_wireFields role path depth rest e h
      · cases h
termination_by structural fields
end

end Value

/-- Which leaves an operator takes. -/
def UpdateOperator.Takes : UpdateOperator → Value → Prop
  | set, value => value.Settable
  | _, value => value.Operand

namespace Update

theorem wireLeaves_cons_eq_ok_iff {op : UpdateOperator} {path : String} {value : Value} {rest : Fields}
    {members : Entries Json} :
    wireLeaves op ((path, value) :: rest) = .ok members ↔
      op.Takes value ∧ ∃ others, wireLeaves op rest = .ok others ∧
        members = (path, value.tree) :: others := by
  have htakes : op.Takes value ↔
      (op.isArithmetic && !value.isNumeric) = false ∧ value.Settable := by
    cases op <;> simp [UpdateOperator.Takes, UpdateOperator.isArithmetic, Value.operand_iff]
  rw [wireLeaves, htakes]
  cases op.isArithmetic && !value.isNumeric with
  | true => simp
  | false =>
    simp only [Bool.false_eq_true, if_false, bind_eq_ok_iff, Value.wire_settable_iff, true_and]
    constructor
    · rintro ⟨json, ⟨hs, rfl⟩, others, ho, h⟩
      cases h
      exact ⟨hs, others, ho, rfl⟩
    · rintro ⟨hs, others, ho, rfl⟩
      exact ⟨_, ⟨hs, rfl⟩, others, ho, rfl⟩

/-- Leaves are written when the operator takes each of them. -/
theorem wireLeaves_eq_ok_iff {op : UpdateOperator} {leaves : Fields} {members : Entries Json} :
    wireLeaves op leaves = .ok members ↔
      (∀ leaf ∈ leaves, op.Takes leaf.2) ∧ members = Value.fieldTrees leaves := by
  induction leaves generalizing members with
  | nil => simp [wireLeaves, Value.fieldTrees, eq_comm]
  | cons leaf rest ih =>
    obtain ⟨path, value⟩ := leaf
    rw [wireLeaves_cons_eq_ok_iff, List.forall_mem_cons, Value.fieldTrees]
    simp only [ih, and_assoc, exists_and_left, exists_eq_left]

theorem kind_of_wireLeaves {op : UpdateOperator} {leaves : Fields} {e : Failure}
    (h : wireLeaves op leaves = .error e) : e.kind = .filterEncoding ∨ e.kind = .valueEncoding := by
  induction leaves with
  | nil => cases h
  | cons leaf rest ih =>
    unfold wireLeaves at h
    split at h
    · cases h
      exact .inr rfl
    · rcases bind_eq_error_iff.1 h with h | ⟨json, -, h⟩
      · exact Value.kind_of_wireAt .update leaf.1 0 leaf.2 e h
      · rcases bind_eq_error_iff.1 h with h | ⟨others, -, h⟩
        · exact ih h
        · cases h

/-! ## Groups -/

/-- The fields of an operator can be spelled as leaves that the operator takes. -/
structure Applicable (u : Update) (op : UpdateOperator) : Prop where
  shaped : (u.group op).WellShaped
  taken : ∀ leaf ∈ (u.group op).dotted, op.Takes leaf.2

namespace Applicable
variable {u : Update} {op : UpdateOperator} (h : u.Applicable op)
include h

theorem leaves_eq : (u.group op).leaves = .ok (u.group op).dotted :=
  Fields.leaves_eq_ok_iff.2 ⟨h.shaped, rfl⟩

theorem wireLeaves_eq : wireLeaves op (u.group op).dotted = .ok (Value.fieldTrees (u.group op).dotted) :=
  wireLeaves_eq_ok_iff.2 ⟨h.taken, rfl⟩

end Applicable

/-- The member of an operator, unless its group is empty: an object of its leaves. -/
def groupMember (u : Update) (op : UpdateOperator) : Entries Json :=
  if (u.group op).isEmpty then []
  else [(op.keyword, .object (Value.fieldTrees (u.group op).dotted))]

/-- The member of the fields to remove, unless there are none. -/
def unsetMember (u : Update) : Entries Json :=
  if u.unset.isEmpty then [] else [(unsetKeyword, .array (u.unset.map .string))]

theorem applicable_of_empty {u : Update} {op : UpdateOperator} (h : u.group op = []) :
    u.Applicable op := by
  refine ⟨⟨?_, ?_, ?_⟩, ?_⟩ <;> rw [h]
  · trivial
  · decide
  · exact List.nodup_nil
  · exact List.forall_mem_nil _

theorem wireGroup_eq_ok_iff {u : Update} {op : UpdateOperator} {groups : Entries Json} :
    u.wireGroup op = .ok groups ↔ u.Applicable op ∧ groups = u.groupMember op := by
  unfold wireGroup groupMember
  by_cases he : u.group op = []
  · simp [he, applicable_of_empty he, eq_comm]
  rw [if_neg (by simpa using he), if_neg (by simpa using he)]
  simp only [bind_eq_ok_iff, Fields.leaves_eq_ok_iff, wireLeaves_eq_ok_iff, Except.ok.injEq]
  constructor
  · rintro ⟨leaves, ⟨hs, rfl⟩, members, ⟨ht, rfl⟩, rfl⟩
    exact ⟨⟨hs, ht⟩, rfl⟩
  · rintro ⟨⟨hs, ht⟩, rfl⟩
    exact ⟨_, ⟨hs, rfl⟩, _, ⟨ht, rfl⟩, rfl⟩

theorem wireGroups_eq_ok_iff {u : Update} {ops : List UpdateOperator} {groups : Entries Json} :
    u.wireGroups ops = .ok groups ↔
      (∀ op ∈ ops, u.Applicable op) ∧ groups = ops.flatMap u.groupMember := by
  induction ops generalizing groups with
  | nil => simp [wireGroups, eq_comm]
  | cons op rest ih =>
    rw [wireGroups, List.forall_mem_cons, List.flatMap_cons]
    simp only [bind_eq_ok_iff, wireGroup_eq_ok_iff, ih, Except.ok.injEq]
    constructor
    · rintro ⟨first, ⟨hf, rfl⟩, others, ⟨ho, rfl⟩, rfl⟩
      exact ⟨⟨hf, ho⟩, rfl⟩
    · rintro ⟨⟨hf, ho⟩, rfl⟩
      exact ⟨_, ⟨hf, rfl⟩, _, ⟨ho, rfl⟩, rfl⟩

theorem wireUnset_eq_ok_iff {u : Update} {groups : Entries Json} :
    u.wireUnset = .ok groups ↔ "" ∉ u.unset ∧ groups = u.unsetMember := by
  unfold wireUnset unsetMember
  by_cases he : u.unset = []
  · simp [he, eq_comm]
  have hne : u.unset.isEmpty = false := by simpa using he
  by_cases hn : "" ∈ u.unset
  · simp [hne, hn]
  · simp [hne, hn, eq_comm]

theorem kind_of_wireGroup {u : Update} {op : UpdateOperator} {e : Failure}
    (h : u.wireGroup op = .error e) : e.kind = .filterEncoding ∨ e.kind = .valueEncoding := by
  unfold wireGroup at h
  split at h
  · cases h
  · rcases bind_eq_error_iff.1 h with h | ⟨leaves, -, h⟩
    · exact .inl (Fields.kind_of_leaves h)
    · rcases bind_eq_error_iff.1 h with h | ⟨members, -, h⟩
      · exact kind_of_wireLeaves h
      · cases h

theorem kind_of_wireGroups {u : Update} {ops : List UpdateOperator} {e : Failure}
    (h : u.wireGroups ops = .error e) : e.kind = .filterEncoding ∨ e.kind = .valueEncoding := by
  induction ops with
  | nil => cases h
  | cons op rest ih =>
    rcases bind_eq_error_iff.1 h with h | ⟨first, -, h⟩
    · exact kind_of_wireGroup h
    · rcases bind_eq_error_iff.1 h with h | ⟨others, -, h⟩
      · exact ih h
      · cases h

theorem kind_of_wireUnset {u : Update} {e : Failure} (h : u.wireUnset = .error e) :
    e.kind = .filterEncoding := by
  unfold wireUnset at h
  split at h
  · cases h
  · split at h
    · cases h
      rfl
    · cases h

/-! ## Updates -/

/-- The members of an update's wire form. -/
def members (u : Update) : Entries Json :=
  u.groupMember .set ++ u.unsetMember ++
    [.increment, .decrement, .multiply, .divide].flatMap u.groupMember

/-- The keywords of the groups that are not empty, in the order of the wire form. -/
def keywords (u : Update) : List String :=
  [("$set", u.set.isEmpty), ("$unset", u.unset.isEmpty), ("$increment", u.increment.isEmpty),
    ("$decrement", u.decrement.isEmpty), ("$multiply", u.multiply.isEmpty),
    ("$divide", u.divide.isEmpty)].flatMap fun group => if group.2 then [] else [group.1]

/-- An update that can be encoded: there is something in it, and nothing in it is at fault. -/
structure Encodable (u : Update) : Prop where
  nonempty : u.unset ≠ [] ∨ ∃ op, u.group op ≠ []
  unset_named : "" ∉ u.unset
  applicable : ∀ op, u.Applicable op

theorem isEmpty_eq_false_iff (u : Update) :
    u.isEmpty = false ↔ u.unset ≠ [] ∨ ∃ op, u.group op ≠ [] := by
  have hgroups : (UpdateOperator.all.all fun op => (u.group op).isEmpty) = true ↔
      ∀ op, u.group op = [] := by
    rw [List.all_eq_true]
    simp only [List.isEmpty_iff]
    exact ⟨fun h op => h op (by cases op <;> decide), fun h op _ => h op⟩
  rw [← Bool.not_eq_true, isEmpty, Bool.and_eq_true, hgroups, List.isEmpty_iff,
    Classical.not_and_iff_not_or_not, Classical.not_forall]

/-- An update has a wire form when it is encodable, and the members of its groups are this form. -/
theorem wire_eq_ok_iff {u : Update} {json : Json} :
    u.wire = .ok json ↔ u.Encodable ∧ json = .object u.members := by
  have hops : (∀ op, u.Applicable op) ↔ u.Applicable .set ∧
      ∀ op ∈ [.increment, .decrement, .multiply, .divide], u.Applicable op := by
    constructor
    · exact fun h => ⟨h .set, fun op _ => h op⟩
    · rintro ⟨hset, hrest⟩ op
      cases op with
      | set => exact hset
      | increment | decrement | multiply | divide => exact hrest _ (by decide)
  unfold wire
  cases he : u.isEmpty with
  | true =>
    have hno : ¬ u.Encodable := fun h => by
      rw [(isEmpty_eq_false_iff u).2 h.nonempty] at he
      cases he
    simp [hno]
  | false =>
    rw [if_neg Bool.false_ne_true]
    simp only [bind_eq_ok_iff, wireGroup_eq_ok_iff, wireUnset_eq_ok_iff, wireGroups_eq_ok_iff,
      Except.ok.injEq]
    constructor
    · rintro ⟨_, ⟨hset, rfl⟩, _, ⟨hunset, rfl⟩, _, ⟨hrest, rfl⟩, rfl⟩
      exact ⟨⟨(isEmpty_eq_false_iff u).1 he, hunset, hops.2 ⟨hset, hrest⟩⟩, rfl⟩
    · rintro ⟨⟨-, hunset, happ⟩, rfl⟩
      exact ⟨_, ⟨happ .set, rfl⟩, _, ⟨hunset, rfl⟩, _, ⟨(hops.1 happ).2, rfl⟩, rfl⟩

theorem kind_of_wire {u : Update} {e : Failure} (h : u.wire = .error e) :
    e.kind = .filterEncoding ∨ e.kind = .valueEncoding := by
  unfold wire at h
  split at h
  · cases h
    exact .inl rfl
  · rcases bind_eq_error_iff.1 h with h | ⟨set, -, h⟩
    · exact kind_of_wireGroup h
    · rcases bind_eq_error_iff.1 h with h | ⟨unset, -, h⟩
      · exact .inl (kind_of_wireUnset h)
      · rcases bind_eq_error_iff.1 h with h | ⟨arithmetic, -, h⟩
        · exact kind_of_wireGroups h
        · cases h

theorem keys_members (u : Update) : Entries.keys u.members = u.keywords := by
  have hgroup : ∀ op, (u.groupMember op).map Prod.fst =
      if (u.group op).isEmpty then [] else [op.keyword] := by
    intro op
    unfold groupMember
    split <;> rfl
  have hunset : u.unsetMember.map Prod.fst = if u.unset.isEmpty then [] else ["$unset"] := by
    unfold unsetMember
    split <;> rfl
  unfold members keywords Entries.keys
  simp only [List.map_append, List.flatMap_cons, List.flatMap_nil, hgroup, hunset, List.append_assoc]
  rfl

/-- An update is encoded exactly when it is encodable. Its text then reads as an object with a member
for each group that is not empty, in order, and as nothing else; otherwise the shape of a group or one
of its values is at fault. -/
theorem encode_exact (u : Update) :
    ((∃ text, u.encode = .ok text) ↔ u.Encodable) ∧
      (∀ text, u.encode = .ok text → ∀ json, Json.Reads text json ↔ json = .object u.members) ∧
      Entries.keys u.members = u.keywords ∧
      ∀ e, u.encode = .error e → e.kind = .filterEncoding ∨ e.kind = .valueEncoding := by
  have hok : ∀ text, u.encode = .ok text ↔ u.Encodable ∧ text = (Json.object u.members).text := by
    intro text
    rw [encode_eq_wire, bind_eq_ok_iff]
    simp only [wire_eq_ok_iff, Except.ok.injEq]
    constructor
    · rintro ⟨json, ⟨he, rfl⟩, rfl⟩
      exact ⟨he, rfl⟩
    · rintro ⟨he, rfl⟩
      exact ⟨_, ⟨he, rfl⟩, rfl⟩
  refine ⟨⟨?_, fun h => ⟨_, (hok _).2 ⟨h, rfl⟩⟩⟩, ?_, u.keys_members, ?_⟩
  · rintro ⟨text, h⟩
    exact ((hok text).1 h).1
  · intro text h
    obtain ⟨he, rfl⟩ := (hok text).1 h
    exact Json.reads_text_iff (lexical_of_wire (wire_eq_ok_iff.2 ⟨he, rfl⟩))
  · intro e h
    rw [encode_eq_wire] at h
    rcases bind_eq_error_iff.1 h with h | ⟨json, -, h⟩
    · exact kind_of_wire h
    · cases h

end Update
end DocWire
