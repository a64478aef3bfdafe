import DocWire.Proofs.Json.Written
import DocWire.Proofs.Number.Spelling
import DocWire.Proofs.Results
import DocWire.Proofs.Value.Written

/-!
# What a value's wire form is, and when there is one

Every encoder of values that succeeds gives the same JSON, `Value.tree`. Whether the wire form exists
depends on the values that the value holds: on the number of array and object steps down to each, and
on the floats and arrays among them. Main statements: `wireAt_eq_ok_iff` and `lexical_of_wire`.
-/
set_option autoImplicit false

namespace DocWire

namespace Json

theorem lexical_ofInt (n : Int) : (ofInt n).Lexical := by
  unfold ofInt Lexical
  rw [toString_eq_signedDigits, String.toList_ofList]
  exact number_signedDigits n

theorem lexical_wide (n : WideInteger) : (number n.text).Lexical := by
  unfold Lexical
  rw [WideInteger.text, String.toList_ofList]
  exact number_signedDigits n.value

theorem lexical_float {x : Binary64} (hf : x.isFinite = true) : (number x.text).Lexical := by
  unfold Lexical
  rw [Binary64.text, String.toList_ofList]
  exact Binary64.number_chars hf

end Json

namespace Value

mutual
/-- The JSON that stands for a value. A float that is not finite has a text that is no number. -/
def tree : Value → Json
  | null => .null
  | bool b => .bool b
  | int n => .ofInt n.toInt
  | uint n => .ofInt n.toNat
  | wide n => .number n.text
  | float x => .number x.text
  | string s => .string s
  | instant t => .string t.text
  | uuid u => .string u.text
  | array items => .array (itemTrees items)
  | object fields => .object (fieldTrees fields)

def itemTrees : List Value → List Json
  | [] => []
  | item :: rest => tree item :: itemTrees rest

def fieldTrees : List (String × Value) → List (String × Json)
  | [] => []
  | (name, value) :: rest => (name, tree value) :: fieldTrees rest
end

theorem keys_fieldTrees (fields : Fields) : Entries.keys (fieldTrees fields) = Entries.keys fields := by
  induction fields with
  | nil => rfl
  | cons field rest ih => exact congrArg (field.1 :: ·) ih

/-! ## Held values -/

/-- `value.Holds n inner`: `inner` stands `n` array or object steps below `value`. -/
inductive Holds : Value → Nat → Value → Prop
  | self (value : Value) : Holds value 0 value
  | item {items : List Value} {item inner : Value} {n : Nat} (hm : item ∈ items)
      (h : Holds item n inner) : Holds (array items) (n + 1) inner
  | field {fields : Fields} {field : String × Value} {inner : Value} {n : Nat} (hm : field ∈ fields)
      (h : Holds field.2 n inner) : Holds (object fields) (n + 1) inner

section
variable {P : Nat → Value → Prop} {value : Value} {items : List Value} {fields : Fields}

theorem forall_holds_scalar_iff (hi : ∀ items, value ≠ array items)
    (ho : ∀ fields, value ≠ object fields) :
    (∀ n inner, value.Holds n inner → P n inner) ↔ P 0 value := by
  constructor
  · intro h
    exact h 0 value (.self value)
  · intro h n inner hh
    cases hh with
    | self => exact h
    | item => exact absurd rfl (hi _)
    | field => exact absurd rfl (ho _)

theorem forall_holds_array_iff :
    (∀ n inner, (array items).Holds n inner → P n inner) ↔
      P 0 (array items) ∧ ∀ item ∈ items, ∀ n inner, item.Holds n inner → P (n + 1) inner := by
  constructor
  · intro h
    exact ⟨h 0 _ (.self _), fun item hm n inner hh => h (n + 1) inner (.item hm hh)⟩
  · rintro ⟨h0, hi⟩ n inner hh
    cases hh with
    | self => exact h0
    | item hm hh => exact hi _ hm _ _ hh

theorem forall_holds_object_iff :
    (∀ n inner, (object fields).Holds n inner → P n inner) ↔
      P 0 (object fields) ∧
        ∀ field ∈ fields, ∀ n inner, field.2.Holds n inner → P (n + 1) inner := by
  constructor
  · intro h
    exact ⟨h 0 _ (.self _), fun field hm n inner hh => h (n + 1) inner (.field hm hh)⟩
  · rintro ⟨h0, hf⟩ n inner hh
    cases hh with
    | self => exact h0
    | field hm hh => exact hf _ hm _ _ hh
end

/-- No float in a value, however deep it stands, is infinite or NaN. -/
def Finite (value : Value) : Prop :=
  ∀ n inner, value.Holds n inner → ∀ x, inner = float x → x.isFinite = true

theorem finite_float_iff (x : Binary64) : (float x).Finite ↔ x.isFinite = true := by
  refine (forall_holds_scalar_iff (fun _ => Value.noConfusion) (fun _ => Value.noConfusion)).trans ?_
  exact ⟨fun h => h x rfl, fun h y hy => by cases hy; exact h⟩

theorem finite_of_scalar {value : Value} (hi : ∀ items, value ≠ array items)
    (ho : ∀ fields, value ≠ object fields) (hx : ∀ x, value ≠ float x) : value.Finite :=
  (forall_holds_scalar_iff hi ho).2 fun x h => absurd h (hx x)

theorem finite_array_iff (items : List Value) : (array items).Finite ↔ ∀ item ∈ items, item.Finite := by
  refine forall_holds_array_iff.trans (and_iff_right ?_)
  intro x hx
  cases hx

theorem finite_object_iff (fields : Fields) :
    (object fields).Finite ↔ ∀ field ∈ fields, field.2.Finite := by
  refine forall_holds_object_iff.trans (and_iff_right ?_)
  intro x hx
  cases hx

/-! ## The tree -/

mutual
theorem lexical_tree (value : Value) (h : value.Finite) : value.tree.Lexical := by
  match value with
  | .null | .bool _ | .string _ | .instant _ | .uuid _ => trivial
  | .int n => exact Json.lexical_ofInt n.toInt
  | .uint n => exact Json.lexical_ofInt n.toNat
  | .wide n => exact Json.lexical_wide n
  | .float x => exact Json.lexical_float ((finite_float_iff x).1 h)
  | .array items => exact lexical_itemTrees items ((finite_array_iff items).1 h)
  | .object fields => exact lexical_fieldTrees fields ((finite_object_iff fields).1 h)
termination_by structural value

theorem lexical_itemTrees (items : List Value) (h : ∀ item ∈ items, item.Finite) :
    Json.ItemsLexical (itemTrees items) := by
  match items with
  | [] => trivial
  | item :: rest =>
    obtain ⟨hi, hr⟩ := List.forall_mem_cons.1 h
    exact ⟨lexical_tree item hi, lexical_itemTrees rest hr⟩
termination_by structural items

theorem lexical_fieldTrees (fields : List (String × Value)) (h : ∀ field ∈ fields, field.2.Finite) :
    Json.MembersLexical (fieldTrees fields) := by
  match fields with
  | [] => trivial
  | (name, value) :: rest =>
    obtain ⟨hv, hr⟩ := List.forall_mem_cons.1 h
    exact ⟨lexical_tree value hv, lexical_fieldTrees rest hr⟩
termination_by structural fields
end

mutual
/-- Each container is one step further down than the one around it. -/
theorem depth_tree_le (value : Value) (depth limit : Nat)
    (h : ∀ n inner, value.Holds n inner → depth + n ≤ limit) :
    depth + value.tree.depth ≤ limit + 1 := by
  have h0 : depth ≤ limit := h 0 value (.self value)
  match value with
  | .null | .bool _ | .string _ | .instant _ | .uuid _ | .int _ | .uint _ | .wide _ | .float _ =>
    exact Nat.le_succ_of_le h0
  | .array items =>
    have hi := (forall_holds_array_iff.1 h).2
    have hd := depth_itemTrees_le items (depth + 1) limit (by omega) fun item hm n inner hh => by
      have := hi item hm n inner hh
      omega
    rw [tree, Json.depth]
    omega
  | .object fields =>
    have hf := (forall_holds_object_iff.1 h).2
    have hd := depth_fieldTrees_le fields (depth + 1) limit (by omega) fun field hm n inner hh => by
      have := hf field hm n inner hh
      omega
    rw [tree, Json.depth]
    omega
termination_by structural value

theorem depth_itemTrees_le (items : List Value) (depth limit : Nat) (hl : depth ≤ limit + 1)
    (h : ∀ item ∈ items, ∀ n inner, item.Holds n inner → depth + n ≤ limit) :
    depth + Json.itemsDepth (itemTrees items) ≤ limit + 1 := by
  match items with
  | [] => exact hl
  | item :: rest =>
    obtain ⟨hi, hr⟩ := List.forall_mem_cons.1 h
    have hitem := depth_tree_le item depth limit hi
    have hrest := depth_itemTrees_le rest depth limit hl hr
    rw [itemTrees, Json.itemsDepth]
    omega
termination_by structural items

theorem depth_fieldTrees_le (fields : List (String × Value)) (depth limit : Nat)
    (hl : depth ≤ limit + 1)
    (h : ∀ field ∈ fields, ∀ n inner, field.2.Holds n inner → depth + n ≤ limit) :
    depth + Json.membersDepth (fieldTrees fields) ≤ limit + 1 := by
  match fields with
  | [] => exact hl
  | (name, value) :: rest =>
    obtain ⟨hv, hr⟩ := List.forall_mem_cons.1 h
    have hvalue := depth_tree_le value depth limit hv
    have hrest := depth_fieldTrees_le rest depth limit hl hr
    rw [fieldTrees, Json.membersDepth]
    omega
termination_by structural fields
end

/-! ## The wire form -/

/-- What a value sent for a purpose may hold: no float that is not finite, and no array where it is
to be compared with. -/
def Sendable (role : WireRole) : Value → Prop
  | float x => x.isFinite = true
  | array _ => role = .update
  | _ => True

theorem sendable_update_iff (value : Value) :
    value.Sendable .update ↔ ∀ x, value = float x → x.isFinite = true := by
  cases value with
  | float x => exact ⟨fun h y hy => by cases hy; exact h, fun h => h x rfl⟩
  | _ => simp [Sendable]

mutual
theorem wireAt_eq_ok_iff (role : WireRole) (path : String) (depth : Nat) (value : Value)
    (json : Json) :
    wireAt role path depth value = .ok json ↔
      (∀ n inner, value.Holds n inner → depth + n ≤ pathDepthLimit ∧ inner.Sendable role) ∧
        value.tree = json := by
  unfold wireAt
  by_cases hl : pathDepthLimit < depth
  · rw [if_pos hl]
    constructor
    · intro h
      cases h
    · rintro ⟨h, -⟩
      have h0 := (h 0 value (.self value)).1
      omega
  · rw [if_neg hl]
    have h0 : depth ≤ pathDepthLimit := Nat.le_of_not_lt hl
    match value with
    | .null | .bool _ | .string _ | .instant _ | .uuid _ | .int _ | .uint _ | .wide _ =>
      rw [forall_holds_scalar_iff (fun _ => Value.noConfusion) (fun _ => Value.noConfusion)]
      simp [h0, Sendable, tree]
    | .float x =>
      rw [forall_holds_scalar_iff (fun _ => Value.noConfusion) (fun _ => Value.noConfusion)]
      by_cases hf : x.isFinite = true <;> simp [hf, h0, Sendable, tree]
    | .array items =>
      rw [forall_holds_array_iff]
      cases role with
      | selector => simp [Sendable]
      | update =>
        have hi := wireItems_eq_ok_iff .update path (depth + 1) items
        simp only [bind_eq_ok_iff, hi, Nat.add_right_comm depth 1]
        simp [h0, Sendable, tree, Nat.add_assoc]
    | .object fields =>
      rw [forall_holds_object_iff]
      have hf := wireFields_eq_ok_iff role path (depth + 1) fields
      simp only [bind_eq_ok_iff, hf, Nat.add_right_comm depth 1]
      simp [h0, Sendable, tree, Nat.add_assoc]
termination_by structural value

theorem wireItems_eq_ok_iff (role : WireRole) (path : String) (depth : Nat) (items : List Value)
    (list : List Json) :
    wireItems role path depth items = .ok list ↔
      (∀ item ∈ items, ∀ n inner, item.Holds n inner →
        depth + n ≤ pathDepthLimit ∧ inner.Sendable role) ∧ itemTrees items = list := by
  match items with
  | [] => simp [wireItems, itemTrees]
  | item :: rest =>
    have hi := wireAt_eq_ok_iff role path depth item
    have hr := wireItems_eq_ok_iff role path depth rest
    simp only [wireItems, bind_eq_ok_iff, hi, hr, List.forall_mem_cons, itemTrees, Except.ok.injEq]
    constructor
    · rintro ⟨_, ⟨hitem, rfl⟩, _, ⟨hrest, rfl⟩, hj⟩
      exact ⟨⟨hitem, hrest⟩, hj⟩
    · rintro ⟨⟨hitem, hrest⟩, hj⟩
      exact ⟨_, ⟨hitem, rfl⟩, _, ⟨hrest, rfl⟩, hj⟩
termination_by structural items

theorem wireFields_eq_ok_iff (role : WireRole) (path : String) (depth : Nat)
    (fields : List (String × Value)) (members : List (String × Json)) :
    wireFields role path depth fields = .ok members ↔
      (∀ field ∈ fields, ∀ n inner, field.2.Holds n inner →
        depth + n ≤ pathDepthLimit ∧ inner.Sendable role) ∧ fieldTrees fields = members := by
  match fields with
  | [] => simp [wireFields, fieldTrees]
  | (name, value) :: rest =>
    have hv := wireAt_eq_ok_iff role path depth value
    have hr := wireFields_eq_ok_iff role path depth rest
    simp only [wireFields, bind_eq_ok_iff, hv, hr, List.forall_mem_cons, fieldTrees,
      Except.ok.injEq]
    constructor
    · rintro ⟨_, ⟨hvalue, rfl⟩, _, ⟨hrest, rfl⟩, hj⟩
      exact ⟨⟨hvalue, hrest⟩, hj⟩
    · rintro ⟨⟨hvalue, hrest⟩, hj⟩
      exact ⟨_, ⟨hvalue, rfl⟩, _, ⟨hrest, rfl⟩, hj⟩
termination_by structural fields
end

theorem finite_of_wireAt {role : WireRole} {path : String} {depth : Nat} {value : Value} {json : Json}
    (h : wireAt role path depth value = .ok json) : value.Finite := by
  rintro n inner hh x rfl
  exact (((wireAt_eq_ok_iff role path depth value json).1 h).1 n _ hh).2

theorem tree_of_wireAt {role : WireRole} {path : String} {depth : Nat} {value : Value} {json : Json}
    (h : wireAt role path depth value = .ok json) : value.tree = json :=
  ((wireAt_eq_ok_iff role path depth value json).1 h).2

theorem depth_of_wireAt (role : WireRole) (path : String) (depth : Nat) (value : Value) (json : Json)
    (h : wireAt role path depth value = .ok json) : depth + json.depth ≤ pathDepthLimit + 1 := by
  obtain ⟨hh, rfl⟩ := (wireAt_eq_ok_iff role path depth value json).1 h
  exact depth_tree_le value depth pathDepthLimit fun n inner hi => (hh n inner hi).1

/-- The numbers in a value's wire form are spelled as numbers. -/
theorem lexical_of_wire {role : WireRole} {path : String} {value : Value} {json : Json}
    (h : value.wire role path = .ok json) : json.Lexical := by
  rw [← tree_of_wireAt h]
  exact lexical_tree value (finite_of_wireAt h)

end Value
end DocWire
