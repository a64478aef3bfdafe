/-!
# Operators

The comparisons of selectors, the connectives of logical filters and the operators of updates, each
with its name in source text and its keyword on the wire, and the limits on how deep filters and
values may nest.
-/
set_option autoImplicit false

namespace DocWire

/-- How many field maps may nest, counting the outermost, and how many array or object steps a
value may go down. -/
def pathDepthLimit : Nat := 32

/-- How many logical filters may nest. -/
def logicalDepthLimit : Nat := 64

/-- The comparison that a selector applies to each of its fields. -/
inductive Comparison where
  | eq
  | gt
  | gte
  | lt
  | lte
deriving DecidableEq, Repr, Inhabited

namespace Comparison

/-- The wire keyword. Equality has none: it is what a bare value means. -/
def keyword? : Comparison → Option String
  | eq => none
  | gt => some "$gt"
  | gte => some "$gte"
  | lt => some "$lt"
  | lte => some "$lte"

def name : Comparison → String
  | eq => "eq"
  | gt => "gt"
  | gte => "gte"
  | lt => "lt"
  | lte => "lte"

def all : List Comparison := [eq, gt, gte, lt, lte]

def ofName? (s : String) : Option Comparison := all.find? fun op => op.name = s

end Comparison

/-- The connective of a logical filter. -/
inductive Connective where
  | and
  | or
deriving DecidableEq, Repr, Inhabited

namespace Connective

def keyword : Connective → String
  | and => "$and"
  | or => "$or"

def name : Connective → String
  | and => "and"
  | or => "or"

def all : List Connective := [and, or]

def ofName? (s : String) : Option Connective := all.find? fun op => op.name = s

end Connective

/-- The operator of a group of fields in an update. -/
inductive UpdateOperator where
  | set
  | increment
  | decrement
  | multiply
  | divide
deriving DecidableEq, Repr, Inhabited

namespace UpdateOperator

def keyword : UpdateOperator → String
  | set => "$set"
  | increment => "$increment"
  | decrement => "$decrement"
  | multiply => "$multiply"
  | divide => "$divide"

def all : List UpdateOperator := [set, increment, decrement, multiply, divide]

def ofKeyword? (s : String) : Option UpdateOperator := all.find? fun op => op.keyword = s

/-- Arithmetic operators take numbers only. -/
def isArithmetic : UpdateOperator → Bool
  | set => false
  | _ => true

end UpdateOperator

/-- The keyword of the fields that an update removes. -/
def unsetKeyword : String := "$unset"

theorem UpdateOperator.keyword_ne_unset (op : UpdateOperator) : op.keyword ≠ unsetKeyword := by
  cases op <;> decide

theorem UpdateOperator.ofKeyword?_keyword (op : UpdateOperator) : ofKeyword? op.keyword = some op := by
  cases op <;> decide

/-- An operator's name as source text gives it: dollar signs in front are dropped, and ASCII case
does not matter. -/
def operatorName (s : String) : String :=
  String.ofList ((s.toList.dropWhile (· = '$')).map Char.toLower)

end DocWire
