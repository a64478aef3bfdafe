import DocWire.Filter.Basic
import DocWire.Value.Leaves

/-!
# Field paths of a filter

The paths that a filter puts on the wire, in the order in which it does, repetitions included.
-/
set_option autoImplicit false

namespace DocWire

namespace LogicalFilter

def selectorPaths : List Selector → Except Failure (List String)
  | [] => .ok []
  | s :: rest => do
    let paths ← s.fields.leafPaths
    .ok (paths ++ (← selectorPaths rest))

mutual
/-- The paths of a logical filter that stands at a level. -/
def pathsAt (level : Nat) (filter : LogicalFilter) : Except Failure (List String) :=
  if logicalDepthLimit < level then .error (.filter .logicalTooDeep)
  else
    match filter with
    | ofSelectors _ children => selectorPaths children
    | ofFilters _ children => filterPaths (level + 1) children
termination_by structural filter

/-- The paths of logical filters at a level, in order. -/
def filterPaths (level : Nat) (filters : List LogicalFilter) : Except Failure (List String) :=
  match filters with
  | [] => .ok []
  | filter :: rest => do
    let paths ← pathsAt level filter
    .ok (paths ++ (← filterPaths level rest))
termination_by structural filters
end

end LogicalFilter

def Filter.paths : Filter → Except Failure (List String)
  | .selector s => s.fields.leafPaths
  | .logical l => l.pathsAt 1

end DocWire
