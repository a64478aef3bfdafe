import DocWire.Filter.Wire
import DocWire.Proofs.Value.Written

/-!
# The tree of a written filter

The text of a filter is that of a JSON tree, `Filter.wire`, and where the filter cannot be written there
is no tree, for the same reason. Main statement: `Filter.encode_eq_wire`.
-/
set_option autoImplicit false

namespace DocWire

/-! ## Trees -/

def Comparison.compare (op : Comparison) (value : Json) : Json :=
  match op.keyword? with
  | none => value
  | some keyword => .object [(keyword, value)]

namespace Selector

/-- The members for the leaves of a selector, in order. -/
def wireLeaves (op : Comparison) : Fields → Except Failure (Entries Json)
  | [] => .ok []
  | (path, value) :: rest => do
    let json ← value.wire .selector path
    .ok ((path, op.compare json) :: (← wireLeaves op rest))

def wire (s : Selector) : Except Failure Json :=
  if s.fields.isEmpty then .error (.filter .emptySelector)
  else do .ok (.object (← wireLeaves s.op (← s.fields.leaves)))

def wireAll : List Selector → Except Failure (List Json)
  | [] => .ok []
  | s :: rest => do
    let json ← s.wire
    .ok (json :: (← wireAll rest))

end Selector

namespace LogicalFilter

mutual
/-- The wire form of a logical filter that stands at a level; the outermost stands at the first. -/
def wireAt (level : Nat) (filter : LogicalFilter) : Except Failure Json :=
  if logicalDepthLimit < level then .error (.filter .logicalTooDeep)
  else
    match filter with
    | ofSelectors op children =>
      if children.isEmpty then .error (.filter (.noChildren op))
      else do .ok (.object [(op.keyword, .array (← Selector.wireAll children))])
    | ofFilters op children =>
      if children.isEmpty then .error (.filter (.noChildren op))
      else do .ok (.object [(op.keyword, .array (← wireFilters (level + 1) children))])
termination_by structural filter

/-- The wire forms of logical filters at a level, in order. -/
def wireFilters (level : Nat) (filters : List LogicalFilter) : Except Failure (List Json) :=
  match filters with
  | [] => .ok []
  | filter :: rest => do
    let json ← wireAt level filter
    .ok (json :: (← wireFilters level rest))
termination_by structural filters
end

end LogicalFilter

def Filter.wire : Filter → Except Failure Json
  | selector s => s.wire
  | logical l => l.wireAt 1

/-! ## Selectors -/

/-- An object of one member is written as the member in braces. -/
theorem Json.text_object_singleton (name : String) (json : Json) (out : String) :
    (pushKey name (out.push '{') ++ json.text).push '}' = out ++ (object [(name, json)]).text := by
  rw [pushKey_append_text, ← text_object, List.map_singleton, joined, joined, if_neg (Nat.lt_irrefl 0),
    String.empty_append, String.append_empty]

namespace Selector

theorem adds_pushLeaf (op : Comparison) (leaf : String × Value) :
    Adds (pushLeaf op leaf) (leaf.2.wire .selector leaf.1 >>= fun json => .ok (leaf.1, op.compare json))
      Json.memberText := by
  intro out
  unfold pushLeaf Comparison.compare Value.wire
  have hv := Value.adds_push .selector leaf.1 0 leaf.2
  cases op.keyword? with
  | none =>
    refine (hv (pushKey leaf.1 out)).trans ?_
    cases Value.wireAt .selector leaf.1 0 leaf.2 with
    | error e => rfl
    | ok json => exact congrArg Except.ok (Json.pushKey_append_text leaf.1 out json)
  | some keyword =>
    simp only [hv _]
    cases Value.wireAt .selector leaf.1 0 leaf.2 with
    | error e => rfl
    | ok json =>
      have ho := Json.text_object_singleton keyword json (pushKey leaf.1 out)
      rw [Json.pushKey_append_text leaf.1 out] at ho
      exact congrArg Except.ok ho

theorem wireLeaves_eq_mapM (op : Comparison) (leaves : Fields) :
    wireLeaves op leaves = leaves.mapM fun leaf =>
      leaf.2.wire .selector leaf.1 >>= fun json => .ok (leaf.1, op.compare json) := by
  induction leaves with
  | nil => rfl
  | cons leaf rest ih =>
    rw [wireLeaves, List.mapM_cons, ih]
    cases leaf.2.wire .selector leaf.1 <;> rfl

theorem encode_eq_wire (s : Selector) :
    s.encode = s.wire >>= fun json => .ok json.text := by
  unfold encode wire
  split
  · rfl
  · cases s.fields.leaves with
    | error e => rfl
    | ok leaves =>
      have hl := adds_pushEach leaves (fun leaf _ => adds_pushLeaf s.op leaf) 0
      rw [← wireLeaves_eq_mapM] at hl
      simp only [bind_ok, hl _]
      cases wireLeaves s.op leaves with
      | error e => rfl
      | ok members =>
        have ht := Json.text_object members ""
        rw [String.empty_append] at ht
        exact congrArg Except.ok ht

theorem adds_push (s : Selector) : Adds s.push s.wire Json.text := by
  intro out
  rw [push, encode_eq_wire]
  cases s.wire <;> rfl

theorem wireAll_eq_mapM (selectors : List Selector) : wireAll selectors = selectors.mapM wire := by
  induction selectors with
  | nil => rfl
  | cons s rest ih =>
    rw [wireAll, List.mapM_cons, ih]
    rfl

end Selector

/-! ## Logical filters -/

namespace LogicalFilter

/-- A connective is written as its keyword over the array of the children. -/
theorem text_connective (op : Connective) (items : List Json) (out : String) :
    pushHead op out ++ joined 0 (items.map Json.text) ++ "]\x7d" =
      out ++ (Json.object [(op.keyword, .array items)]).text := by
  have harray := Json.text_array items (pushKey op.keyword (out.push '{'))
  rw [← Json.text_object_singleton, ← harray, pushHead]
  refine String.toList_inj.1 ?_
  rw [String.toList_append, String.toList_push, String.toList_push, List.append_assoc]
  rfl

mutual
theorem adds_push (level : Nat) (filter : LogicalFilter) :
    Adds (push level filter) (wireAt level filter) Json.text := by
  intro out
  unfold push wireAt
  by_cases hl : logicalDepthLimit < level
  · rw [if_pos hl, if_pos hl]
    rfl
  · rw [if_neg hl, if_neg hl]
    match filter with
    | .ofSelectors op children =>
      simp only
      split
      · rfl
      · have hc := adds_pushEach children (fun s _ => s.adds_push) 0
        rw [← Selector.wireAll_eq_mapM] at hc
        rw [hc]
        cases Selector.wireAll children with
        | error e => rfl
        | ok items => exact congrArg Except.ok (text_connective op items out)
    | .ofFilters op children =>
      simp only
      split
      · rfl
      · rw [adds_pushFilters (level + 1) 0 children]
        cases wireFilters (level + 1) children with
        | error e => rfl
        | ok items => exact congrArg Except.ok (text_connective op items out)
termination_by structural filter

theorem adds_pushFilters (level i : Nat) (filters : List LogicalFilter) :
    Adds (pushFilters level i filters) (wireFilters level filters)
      fun items => joined i (items.map Json.text) := by
  match filters with
  | [] =>
    intro out
    exact congrArg Except.ok String.append_empty.symm
  | filter :: rest => exact adds_cons (adds_push level filter) (adds_pushFilters level (i + 1) rest)
termination_by structural filters
end

theorem encode_eq_wireAt (filter : LogicalFilter) :
    filter.encode = filter.wireAt 1 >>= fun json => .ok json.text := by
  rw [encode, adds_push 1 filter]
  cases wireAt 1 filter with
  | error e => rfl
  | ok json => exact congrArg Except.ok String.empty_append

end LogicalFilter

/-- A filter is written as the text of its wire form. -/
theorem Filter.encode_eq_wire (filter : Filter) :
    filter.encode = filter.wire >>= fun json => .ok json.text := by
  cases filter with
  | selector s => exact s.encode_eq_wire
  | logical l => exact l.encode_eq_wireAt

end DocWire
