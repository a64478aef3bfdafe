import DocWire.Proofs.Filter.Written
import DocWire.Proofs.Update.Written
import DocWire.Proofs.Value.Received

/-!
# Variants of integers

Which variant holds an integer makes no difference on the wire: a filter or an update, in which all
integers are held as wide ones instead, has the same text or fails for the same reason. This is so at
every depth of values, of field maps and of logical filters. Main statements: `Filter.encode_widened`
and `Update.encode_widened`.
-/
set_option autoImplicit false

namespace DocWire

/-! ## Values -/

namespace Value

mutual
/-- The value with all integers in it as wide ones. -/
def widened : Value → Value
  | int n => wide ⟨n.toInt⟩
  | uint n => wide ⟨n.toNat⟩
  | array items => array (widenedItems items)
  | object fields => object (widenedFields fields)
  | null => null
  | bool b => bool b
  | float x => float x
  | wide n => wide n
  | string s => string s
  | instant t => instant t
  | uuid u => uuid u

def widenedItems : List Value → List Value
  | [] => []
  | item :: rest => widened item :: widenedItems rest

def widenedFields : List (String × Value) → List (String × Value)
  | [] => []
  | (name, value) :: rest => (name, widened value) :: widenedFields rest
end

theorem widened_of_integer? {value : Value} {n : Int} (h : value.integer? = some n) :
    value.widened = wide ⟨n⟩ := by
  cases value with
  | int n => cases h; rfl
  | uint n => cases h; rfl
  | wide n => cases h; rfl
  | _ => cases h

theorem kind_widened (value : Value) : value.widened.kind = value.kind := by
  cases value <;> rfl

theorem isNumeric_widened (value : Value) : value.widened.isNumeric = value.isNumeric := by
  cases value <;> rfl

mutual
/-- What arrives of a value does not show which variants its integers had. -/
theorem received_widened (value : Value) : value.widened.received = value.received := by
  match value with
  | .null | .bool _ | .int _ | .uint _ | .float _ | .wide _ | .string _ | .instant _ | .uuid _ => rfl
  | .array items => exact congrArg array (receivedItems_widened items)
  | .object fields => exact congrArg object (receivedFields_widened fields)
termination_by structural value

theorem receivedItems_widened (items : List Value) :
    receivedItems (widenedItems items) = receivedItems items := by
  match items with
  | [] => rfl
  | item :: rest => exact congrArg₂ List.cons (received_widened item) (receivedItems_widened rest)
termination_by structural items

theorem receivedFields_widened (fields : List (String × Value)) :
    receivedFields (widenedFields fields) = receivedFields fields := by
  match fields with
  | [] => rfl
  | (name, value) :: rest =>
    have hv := received_widened value
    have hr := receivedFields_widened rest
    rw [widenedFields, receivedFields, receivedFields, hv, hr]
termination_by structural fields
end

theorem wireAt_widened (role : WireRole) (path : String) (depth : Nat) (value : Value) :
    wireAt role path depth value.widened = wireAt role path depth value := by
  rw [← wireAt_received role path depth value.widened, received_widened, wireAt_received]

end Value

/-! ## Field maps -/

namespace Fields

def widened (fields : Fields) : Fields := Value.widenedFields fields

theorem isEmpty_widened (fields : Fields) : fields.widened.isEmpty = fields.isEmpty := by
  cases fields <;> rfl

theorem widened_append (fields others : Fields) :
    widened (fields ++ others) = fields.widened ++ others.widened := by
  induction fields with
  | nil => rfl
  | cons field rest ih => exact congrArg ((field.1, field.2.widened) :: ·) ih

theorem get?_widened (name : String) (fields : Fields) :
    Entries.get? name fields.widened = (Entries.get? name fields).map Value.widened := by
  induction fields with
  | nil => rfl
  | cons field rest ih =>
    change (if field.1 = name then some field.2.widened else Entries.get? name (widened rest)) =
      (if field.1 = name then some field.2 else Entries.get? name rest).map Value.widened
    rw [ih]
    split <;> rfl

theorem addLeaf_widened (path : String) (value : Value) (found : Fields) :
    addLeaf path value.widened found.widened = (addLeaf path value found).map widened := by
  unfold addLeaf Entries.contains
  rw [get?_widened, Option.isSome_map]
  split
  · rfl
  · exact congrArg Except.ok (widened_append found [(path, value)]).symm

mutual
theorem valueLeaves_widened (depth : Nat) (path : String) (found : Fields) (value : Value) :
    valueLeaves depth path found.widened value.widened =
      (valueLeaves depth path found value).map widened := by
  match value with
  | .object fields =>
    have hf := fieldLeaves_widened depth (some path) found fields
    have hempty : (Value.widenedFields fields).isEmpty = fields.isEmpty := isEmpty_widened fields
    rw [Value.widened]
    unfold valueLeaves
    rw [hf, hempty]
    split
    · rfl
    · split <;> rfl
  | .null | .bool _ | .int _ | .uint _ | .float _ | .wide _ | .string _ | .instant _ | .uuid _
  | .array _ => exact addLeaf_widened path _ found
termination_by structural value

theorem fieldLeaves_widened (depth : Nat) (parent? : Option String) (found : Fields)
    (fields : List (String × Value)) :
    fieldLeaves depth parent? found.widened (Value.widenedFields fields) =
      (fieldLeaves depth parent? found fields).map widened := by
  match fields with
  | [] => rfl
  | (name, value) :: rest =>
    have hv := valueLeaves_widened (depth + 1) (childPath parent? name) found value
    rw [Value.widenedFields]
    unfold fieldLeaves
    rw [hv]
    split
    · rfl
    · cases valueLeaves (depth + 1) (childPath parent? name) found value with
      | error e => rfl
      | ok middle => exact fieldLeaves_widened depth parent? middle rest
termination_by structural fields
end

theorem leaves_widened (fields : Fields) : leaves fields.widened = (leaves fields).map widened :=
  fieldLeaves_widened 1 none [] fields

end Fields

/-! ## Filters -/

namespace Selector

def widened (s : Selector) : Selector := ⟨s.op, s.fields.widened⟩

theorem wireLeaves_widened (op : Comparison) (leaves : Fields) :
    wireLeaves op leaves.widened = wireLeaves op leaves := by
  induction leaves with
  | nil => rfl
  | cons leaf rest ih =>
    obtain ⟨path, value⟩ := leaf
    have hv := Value.wireAt_widened .selector path 0 value
    unfold Fields.widened at *
    rw [Value.widenedFields, wireLeaves, wireLeaves, ih, Value.wire, Value.wire, hv]

theorem wire_widened (s : Selector) : s.widened.wire = s.wire := by
  unfold widened wire
  simp only
  rw [Fields.isEmpty_widened, Fields.leaves_widened]
  cases s.fields.leaves with
  | error e => rfl
  | ok leaves =>
    simp only [Except.map, bind_ok, wireLeaves_widened]

theorem wireAll_widened (children : List Selector) :
    wireAll (children.map widened) = wireAll children := by
  induction children with
  | nil => rfl
  | cons child rest ih => rw [List.map_cons, wireAll, wireAll, wire_widened, ih]

end Selector

namespace LogicalFilter

mutual
def widened : LogicalFilter → LogicalFilter
  | ofSelectors op children => ofSelectors op (children.map Selector.widened)
  | ofFilters op children => ofFilters op (widenedAll children)

def widenedAll : List LogicalFilter → List LogicalFilter
  | [] => []
  | child :: rest => widened child :: widenedAll rest
end

mutual
theorem wireAt_widened (level : Nat) (filter : LogicalFilter) :
    wireAt level filter.widened = wireAt level filter := by
  match filter with
  | .ofSelectors op children =>
    rw [widened]
    unfold wireAt
    simp only
    rw [Selector.wireAll_widened, List.isEmpty_map]
  | .ofFilters op children =>
    have hc := wireFilters_widened (level + 1) children
    have hempty : (widenedAll children).isEmpty = children.isEmpty := by cases children <;> rfl
    rw [widened]
    unfold wireAt
    simp only
    rw [hc, hempty]
termination_by structural filter

theorem wireFilters_widened (level : Nat) (filters : List LogicalFilter) :
    wireFilters level (widenedAll filters) = wireFilters level filters := by
  match filters with
  | [] => rfl
  | filter :: rest =>
    have hf := wireAt_widened level filter
    have hr := wireFilters_widened level rest
    rw [widenedAll, wireFilters, wireFilters, hf, hr]
termination_by structural filters
end

end LogicalFilter

namespace Filter

def widened : Filter → Filter
  | selector s => selector s.widened
  | logical l => logical l.widened

theorem encode_widened (filter : Filter) : filter.widened.encode = filter.encode := by
  rw [encode_eq_wire, encode_eq_wire]
  cases filter with
  | selector s => rw [widened, wire, wire, s.wire_widened]
  | logical l => rw [widened, wire, wire, l.wireAt_widened]

end Filter

/-! ## Updates -/

namespace Update

def widened (u : Update) : Update :=
  ⟨u.set.widened, u.unset, u.increment.widened, u.decrement.widened, u.multiply.widened,
    u.divide.widened⟩

theorem group_widened (u : Update) (op : UpdateOperator) :
    u.widened.group op = (u.group op).widened := by
  cases op <;> rfl

theorem wireLeaves_widened (op : UpdateOperator) (leaves : Fields) :
    wireLeaves op leaves.widened = wireLeaves op leaves := by
  induction leaves with
  | nil => rfl
  | cons leaf rest ih =>
    obtain ⟨path, value⟩ := leaf
    have hv := Value.wireAt_widened .update path 0 value
    unfold Fields.widened at *
    rw [Value.widenedFields, wireLeaves, wireLeaves, ih, Value.wire, Value.wire, hv,
      value.isNumeric_widened, value.kind_widened]

theorem wireGroup_widened (u : Update) (op : UpdateOperator) :
    u.widened.wireGroup op = u.wireGroup op := by
  unfold wireGroup
  rw [group_widened, Fields.isEmpty_widened, Fields.leaves_widened]
  cases (u.group op).leaves with
  | error e => rfl
  | ok leaves =>
    simp only [Except.map, bind_ok, wireLeaves_widened]

theorem wireGroups_widened (u : Update) (ops : List UpdateOperator) :
    u.widened.wireGroups ops = u.wireGroups ops := by
  induction ops with
  | nil => rfl
  | cons op rest ih => rw [wireGroups, wireGroups, wireGroup_widened, ih]

theorem isEmpty_widened (u : Update) : u.widened.isEmpty = u.isEmpty := by
  unfold isEmpty
  simp only [group_widened, Fields.isEmpty_widened]
  rfl

theorem encode_widened (u : Update) : u.widened.encode = u.encode := by
  rw [encode_eq_wire, encode_eq_wire]
  unfold wire
  rw [isEmpty_widened, wireGroup_widened, wireGroups_widened]
  rfl

end Update
end DocWire
