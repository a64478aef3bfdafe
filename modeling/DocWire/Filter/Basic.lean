import DocWire.Operator
import DocWire.Value.Basic

/-!
# Filters

A selector compares fields with values by one operator. A logical filter joins selectors, or joins
logical filters, never both. A filter is one or the other.
-/
set_option autoImplicit false

namespace DocWire

/-- One comparison, applied to every field. -/
structure Selector where
  op : Comparison
  fields : Fields
deriving Inhabited

/-- Selectors or logical filters joined by a connective. -/
inductive LogicalFilter where
  | ofSelectors (op : Connective) (children : List Selector)
  | ofFilters (op : Connective) (children : List LogicalFilter)
deriving Inhabited

/-- Which documents a request touches. -/
inductive Filter where
  | selector (s : Selector)
  | logical (l : LogicalFilter)
deriving Inhabited

/-- The selector for fields that equal the given values. -/
def Selector.equals (fields : Fields) : Selector := ⟨.eq, fields⟩

/-! ## Equality -/

def Selector.same (a b : Selector) : Bool := a.op == b.op && a.fields.same b.fields

namespace LogicalFilter

def sameSelectors : List Selector → List Selector → Bool
  | [], [] => true
  | a :: as, b :: bs => a.same b && sameSelectors as bs
  | _, _ => false

mutual
/-- Equality of logical filters: the same connective, the same kind of children, and equal children
in the same order. -/
def same : LogicalFilter → LogicalFilter → Bool
  | ofSelectors p as, ofSelectors q bs => p == q && sameSelectors as bs
  | ofFilters p as, ofFilters q bs => p == q && sameFilters as bs
  | _, _ => false

def sameFilters : List LogicalFilter → List LogicalFilter → Bool
  | [], [] => true
  | a :: as, b :: bs => same a b && sameFilters as bs
  | _, _ => false
end

end LogicalFilter

namespace Filter

def same : Filter → Filter → Bool
  | selector a, selector b => a.same b
  | logical a, logical b => a.same b
  | _, _ => false

end Filter
end DocWire
