import DocWire.Operator
import DocWire.Value.Leaves

/-!
# Updates

An update is five groups of fields, one for each operator that takes values, and a list of fields to
remove. Its paths are those of the groups in the order of the operators, then the removed fields.
-/
set_option autoImplicit false

namespace DocWire

/-- How a request changes documents. -/
structure Update where
  set : Fields
  unset : List String
  increment : Fields
  decrement : Fields
  multiply : Fields
  divide : Fields
deriving Inhabited

namespace Update

/-- The update that changes nothing. -/
def empty : Update := ⟨[], [], [], [], [], []⟩

def group (u : Update) : UpdateOperator → Fields
  | .set => u.set
  | .increment => u.increment
  | .decrement => u.decrement
  | .multiply => u.multiply
  | .divide => u.divide

def withGroup (u : Update) (op : UpdateOperator) (fields : Fields) : Update :=
  match op with
  | .set => { u with set := fields }
  | .increment => { u with increment := fields }
  | .decrement => { u with decrement := fields }
  | .multiply => { u with multiply := fields }
  | .divide => { u with divide := fields }

def isEmpty (u : Update) : Bool :=
  u.unset.isEmpty && UpdateOperator.all.all fun op => (u.group op).isEmpty

/-- The leaf paths of the fields of operators, in order. -/
def groupPaths (u : Update) : List UpdateOperator → Except Failure (List String)
  | [] => .ok []
  | op :: rest => do
    let paths ← (u.group op).leafPaths
    .ok (paths ++ (← groupPaths u rest))

def paths (u : Update) : Except Failure (List String) := do
  .ok ((← u.groupPaths UpdateOperator.all) ++ u.unset)

theorem group_withGroup (u : Update) (op other : UpdateOperator) (fields : Fields) :
    (u.withGroup op fields).group other = if op = other then fields else u.group other := by
  cases op <;> cases other <;> rfl

end Update
end DocWire
