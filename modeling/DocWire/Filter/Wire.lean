import DocWire.Filter.Basic
import DocWire.Value.Leaves
import DocWire.Value.Wire

/-!
# Filters on the wire

A selector is written as an object with a member for each leaf of its fields; a comparison other than
equality wraps the leaf's value in an object with the operator's keyword. A logical filter is written as
an object with the connective's keyword, over the array of its children.
-/
set_option autoImplicit false

namespace DocWire

namespace Selector

def pushLeaf (op : Comparison) (leaf : String × Value) (out : String) : Except Failure String :=
  let out := pushKey leaf.1 out
  match op.keyword? with
  | none => leaf.2.push .selector leaf.1 0 out
  | some keyword => do
    let out ← leaf.2.push .selector leaf.1 0 (pushKey keyword (out.push '{'))
    .ok (out.push '}')

def encode (s : Selector) : Except Failure String :=
  if s.fields.isEmpty then .error (.filter .emptySelector)
  else do
    let leaves ← s.fields.leaves
    let out ← pushEach (pushLeaf s.op) 0 leaves "\x7b"
    .ok (out.push '}')

def push (s : Selector) (out : String) : Except Failure String := do .ok (out ++ (← s.encode))

end Selector

namespace LogicalFilter

/-- Writes what stands in front of the children of a connective. -/
def pushHead (op : Connective) (out : String) : String := (pushKey op.keyword (out.push '{')).push '['

mutual
def push (level : Nat) (filter : LogicalFilter) (out : String) : Except Failure String :=
  if logicalDepthLimit < level then .error (.filter .logicalTooDeep)
  else
    match filter with
    | ofSelectors op children =>
      if children.isEmpty then .error (.filter (.noChildren op))
      else do
        let out ← pushEach Selector.push 0 children (pushHead op out)
        .ok (out ++ "]\x7d")
    | ofFilters op children =>
      if children.isEmpty then .error (.filter (.noChildren op))
      else do
        let out ← pushFilters (level + 1) 0 children (pushHead op out)
        .ok (out ++ "]\x7d")
termination_by structural filter

def pushFilters (level i : Nat) (filters : List LogicalFilter) (out : String) :
    Except Failure String :=
  match filters with
  | [] => .ok out
  | filter :: rest => do
    let out ← push level filter (pushComma i out)
    pushFilters level (i + 1) rest out
termination_by structural filters
end

def encode (filter : LogicalFilter) : Except Failure String := filter.push 1 ""

end LogicalFilter

def Filter.encode : Filter → Except Failure String
  | selector s => s.encode
  | logical l => l.encode

end DocWire
