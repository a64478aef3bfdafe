import DocWire.Update.Basic
import DocWire.Value.Wire

/-!
# Updates on the wire

An update is written as an object with a member for each group that holds anything: the fields to set,
the array of fields to remove, then the arithmetic operators. A group is an object with a member for
each leaf of its fields; arithmetic takes numbers only.
-/
set_option autoImplicit false

namespace DocWire.Update

/-- The text of an update so far, and whether no group has been opened in it. -/
structure Draft where
  out : String
  first : Bool

/-- Writes the keyword of a group, behind a comma unless it is the first one. -/
def Draft.openGroup (draft : Draft) (keyword : String) : Draft :=
  ⟨pushKey keyword (if draft.first then draft.out else draft.out.push ','), false⟩

/-- Writes the member of a leaf of an operator's fields. -/
def pushLeaf (op : UpdateOperator) (leaf : String × Value) (out : String) : Except Failure String :=
  if op.isArithmetic && !leaf.2.isNumeric then
    .error (.value (.notNumber leaf.1 op leaf.2.kind))
  else leaf.2.push .update leaf.1 0 (pushKey leaf.1 out)

def pushFields (op : UpdateOperator) (fields : Fields) (out : String) : Except Failure String := do
  let leaves ← fields.leaves
  let out ← pushEach (pushLeaf op) 0 leaves (out.push '{')
  .ok (out.push '}')

/-- Writes the group of an operator, unless it is empty. -/
def pushGroup (u : Update) (op : UpdateOperator) (draft : Draft) : Except Failure Draft :=
  if (u.group op).isEmpty then .ok draft
  else do
    let draft := draft.openGroup op.keyword
    .ok { draft with out := ← pushFields op (u.group op) draft.out }

def pushGroups (u : Update) : List UpdateOperator → Draft → Except Failure Draft
  | [], draft => .ok draft
  | op :: rest, draft => do
    let draft ← u.pushGroup op draft
    u.pushGroups rest draft

def pushRemoved (name : String) (out : String) : Except Failure String :=
  if name = "" then .error (.filter .emptyUnsetName) else .ok (pushString name out)

/-- Writes the fields to remove, unless there are none. -/
def pushUnset (u : Update) (draft : Draft) : Except Failure Draft :=
  if u.unset.isEmpty then .ok draft
  else do
    let draft := draft.openGroup unsetKeyword
    let out ← pushEach pushRemoved 0 u.unset (draft.out.push '[')
    .ok { draft with out := out.push ']' }

def encode (u : Update) : Except Failure String :=
  if u.isEmpty then .error (.filter .emptyUpdate)
  else do
    let draft ← u.pushGroup .set ⟨"\x7b", true⟩
    let draft ← u.pushUnset draft
    let draft ← u.pushGroups [.increment, .decrement, .multiply, .divide] draft
    .ok (draft.out.push '}')

end DocWire.Update
