import DocWire.Proofs.Value.Written
import DocWire.Update.Wire

/-!
# The tree of a written update

The text of an update is that of a JSON tree, `Update.wire`, and where the update cannot be written
there is no tree, for the same reason. The text so far is always that of the members so far. Main
statement: `encode_eq_wire`.
-/
set_option autoImplicit false

namespace DocWire.Update

/-! ## Trees -/

/-- The members for the leaves of an operator's fields, in order. -/
def wireLeaves (op : UpdateOperator) : Fields → Except Failure (Entries Json)
  | [] => .ok []
  | (path, value) :: rest =>
    if op.isArithmetic && !value.isNumeric then
      .error (.value (.notNumber path op value.kind))
    else do
      let json ← value.wire .update path
      .ok ((path, json) :: (← wireLeaves op rest))

/-- The member of an operator, unless its group is empty. -/
def wireGroup (u : Update) (op : UpdateOperator) : Except Failure (Entries Json) :=
  if (u.group op).isEmpty then .ok []
  else do .ok [(op.keyword, .object (← wireLeaves op (← (u.group op).leaves)))]

def wireGroups (u : Update) : List UpdateOperator → Except Failure (Entries Json)
  | [] => .ok []
  | op :: rest => do
    let members ← u.wireGroup op
    .ok (members ++ (← wireGroups u rest))

/-- The member of the fields to remove, unless there are none. -/
def wireUnset (u : Update) : Except Failure (Entries Json) :=
  if u.unset.isEmpty then .ok []
  else if u.unset.contains "" then .error (.filter .emptyUnsetName)
  else .ok [(unsetKeyword, .array (u.unset.map .string))]

def wire (u : Update) : Except Failure Json :=
  if u.isEmpty then .error (.filter .emptyUpdate)
  else do
    let set ← u.wireGroup .set
    let unset ← u.wireUnset
    let arithmetic ← u.wireGroups [.increment, .decrement, .multiply, .divide]
    .ok (.object (set ++ unset ++ arithmetic))

/-! ## Pieces -/

theorem adds_pushLeaf (op : UpdateOperator) (leaf : String × Value) :
    Adds (pushLeaf op leaf)
      (if op.isArithmetic && !leaf.2.isNumeric then
        .error (.value (.notNumber leaf.1 op leaf.2.kind))
      else leaf.2.wire .update leaf.1 >>= fun json => .ok (leaf.1, json))
      Json.memberText := by
  intro out
  unfold pushLeaf
  split
  · rfl
  · exact Value.adds_member (Value.adds_push .update leaf.1 0 leaf.2) out

theorem wireLeaves_eq_mapM (op : UpdateOperator) (leaves : Fields) :
    wireLeaves op leaves = leaves.mapM fun leaf =>
      if op.isArithmetic && !leaf.2.isNumeric then
        .error (.value (.notNumber leaf.1 op leaf.2.kind))
      else leaf.2.wire .update leaf.1 >>= fun json => .ok (leaf.1, json) := by
  induction leaves with
  | nil => rfl
  | cons leaf rest ih =>
    rw [wireLeaves, List.mapM_cons, ih]
    split
    · rfl
    · cases leaf.2.wire .update leaf.1 <;> rfl

theorem adds_pushFields (op : UpdateOperator) (fields : Fields) :
    Adds (pushFields op fields)
      (fields.leaves >>= fun leaves => wireLeaves op leaves >>= fun members => .ok (.object members))
      Json.text := by
  intro out
  unfold pushFields
  cases fields.leaves with
  | error e => rfl
  | ok leaves =>
    have hl := adds_pushEach leaves (fun leaf _ => adds_pushLeaf op leaf) 0
    rw [← wireLeaves_eq_mapM] at hl
    simp only [bind_ok, hl _]
    cases wireLeaves op leaves with
    | error e => rfl
    | ok members => exact congrArg Except.ok (Json.text_object members out)

/-- The name of a field to remove. -/
def wireRemoved (name : String) : Except Failure Json :=
  if name = "" then .error (.filter .emptyUnsetName) else .ok (.string name)

theorem mapM_wireRemoved (names : List String) :
    names.mapM wireRemoved =
      if names.contains "" then .error (.filter .emptyUnsetName) else .ok (names.map .string) := by
  induction names with
  | nil => rfl
  | cons name rest ih =>
    rw [List.mapM_cons, ih, List.contains_cons, wireRemoved]
    by_cases hn : name = ""
    · subst hn
      rfl
    · have hne : ("" == name) = false := by simpa using Ne.symm hn
      rw [if_neg hn, hne, Bool.false_or]
      split <;> rfl

theorem adds_pushRemoved (name : String) :
    Adds (pushRemoved name) (wireRemoved name) Json.text := by
  intro out
  unfold pushRemoved wireRemoved
  split
  · rfl
  · exact congrArg Except.ok (Value.pushString_eq name out)

/-! ## Drafts -/

/-- The draft in which some members have been written. -/
def draftOf (members : Entries Json) : Draft :=
  ⟨"\x7b" ++ joined 0 (members.map Json.memberText), members.isEmpty⟩

/-- A value behind the keyword of a group makes one more member. -/
theorem openGroup_draftOf (members : Entries Json) (keyword : String) (json : Json) :
    ((draftOf members).openGroup keyword).out ++ json.text =
      (draftOf (members ++ [(keyword, json)])).out := by
  unfold Draft.openGroup draftOf
  rw [Json.pushKey_append_text, List.map_append, List.map_singleton, joined_concat, List.length_map]
  cases members with
  | nil => simp [String.append_assoc]
  | cons member rest =>
    simp only [List.isEmpty_cons, Bool.false_eq_true, if_false, List.length_cons,
      if_pos (show 0 < 0 + (rest.length + 1) by omega), String.push_eq_append, String.append_assoc]
    rfl

/-- A group is opened, and a value is written in it. -/
theorem openGroup_of_adds (members : Entries Json) (keyword : String)
    {step : String → Except Failure String} {result : Except Failure Json}
    (h : Adds step result Json.text) :
    (step ((draftOf members).openGroup keyword).out >>= fun out =>
        .ok { (draftOf members).openGroup keyword with out := out }) =
      result >>= fun json => .ok (draftOf (members ++ [(keyword, json)])) := by
  rw [h]
  cases result with
  | error e => rfl
  | ok json =>
    rw [bind_ok, bind_ok, bind_ok, openGroup_draftOf]
    simp [Draft.openGroup, draftOf]

variable (u : Update)

theorem pushGroup_draftOf (op : UpdateOperator) (members : Entries Json) :
    u.pushGroup op (draftOf members) =
      u.wireGroup op >>= fun more => .ok (draftOf (members ++ more)) := by
  unfold pushGroup wireGroup
  split
  · rw [bind_ok, List.append_nil]
  · refine (openGroup_of_adds members op.keyword (adds_pushFields op (u.group op))).trans ?_
    cases (u.group op).leaves with
    | error e => rfl
    | ok leaves =>
      rw [bind_ok, bind_ok]
      cases wireLeaves op leaves <;> rfl

theorem pushGroups_draftOf (ops : List UpdateOperator) (members : Entries Json) :
    u.pushGroups ops (draftOf members) =
      u.wireGroups ops >>= fun more => .ok (draftOf (members ++ more)) := by
  induction ops generalizing members with
  | nil => rw [pushGroups, wireGroups, bind_ok, List.append_nil]
  | cons op rest ih =>
    rw [pushGroups, wireGroups, pushGroup_draftOf]
    cases u.wireGroup op with
    | error e => rfl
    | ok more =>
      rw [bind_ok, bind_ok, bind_ok, ih]
      cases u.wireGroups rest with
      | error e => rfl
      | ok others => rw [bind_ok, bind_ok, bind_ok, List.append_assoc]

theorem pushUnset_draftOf (members : Entries Json) :
    u.pushUnset (draftOf members) =
      u.wireUnset >>= fun more => .ok (draftOf (members ++ more)) := by
  unfold pushUnset wireUnset
  split
  · rw [bind_ok, List.append_nil]
  · have hu : Adds (fun out => pushEach pushRemoved 0 u.unset (out.push '[') >>= fun out =>
        .ok (out.push ']'))
        (if u.unset.contains "" then .error (.filter .emptyUnsetName)
        else .ok (.array (u.unset.map .string))) Json.text := by
      intro out
      have hp := adds_pushEach u.unset (fun name _ => adds_pushRemoved name) 0
      rw [mapM_wireRemoved] at hp
      simp only [hp _]
      split
      · rfl
      · exact congrArg Except.ok (Json.text_array _ out)
    have hg := openGroup_of_adds members unsetKeyword hu
    simp only at hg
    rw [bind_assoc] at hg
    refine hg.trans ?_
    split <;> rfl

/-- An update is written as the text of its wire form. -/
theorem encode_eq_wire : u.encode = u.wire >>= fun json => .ok json.text := by
  have hstart : (⟨"\x7b", true⟩ : Draft) = draftOf [] := by simp [draftOf, joined]
  unfold encode wire
  split
  · rfl
  · rw [hstart, pushGroup_draftOf]
    cases u.wireGroup .set with
    | error e => rfl
    | ok set =>
      rw [bind_ok, bind_ok, bind_ok, pushUnset_draftOf]
      cases u.wireUnset with
      | error e => rfl
      | ok unset =>
        rw [bind_ok, bind_ok, bind_ok, pushGroups_draftOf]
        cases u.wireGroups [.increment, .decrement, .multiply, .divide] with
        | error e => rfl
        | ok arithmetic =>
          have ht := Json.text_object (set ++ unset ++ arithmetic) ""
          rw [String.empty_append] at ht
          exact congrArg Except.ok ht

end DocWire.Update
