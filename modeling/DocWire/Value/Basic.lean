import DocWire.Entries
import DocWire.Number.WideInteger
import DocWire.Number.Binary64
import DocWire.Calendar.Instant
import DocWire.Uuid

/-!
# Field values

What a field of a document can hold in a filter, a projection or an update, and the maps from field
names to such values. Integers come in three variants, by the range they were given in; `integer?`
is the number that an integer stands for.
-/
set_option autoImplicit false

namespace DocWire

/-- A value of a document field. -/
inductive Value where
  | null
  | bool (b : Bool)
  | int (n : Int64)
  | uint (n : UInt64)
  | float (x : Binary64)
  | wide (n : WideInteger)
  | string (s : String)
  | instant (t : Instant)
  | uuid (u : Uuid)
  | array (items : List Value)
  | object (fields : List (String × Value))
deriving Inhabited

/-- Field names with their values, in order of first insertion. -/
abbrev Fields := Entries Value

namespace Value

def kind : Value → String
  | null => "null"
  | bool _ => "bool"
  | int _ => "integer"
  | uint _ => "integer"
  | wide _ => "integer"
  | float _ => "float"
  | string _ => "string"
  | instant _ => "datetime"
  | uuid _ => "uuid"
  | array _ => "array"
  | object _ => "object"

/-- The number that an integer of any variant stands for. -/
def integer? : Value → Option Int
  | int n => some n.toInt
  | uint n => some n.toNat
  | wide n => some n.value
  | _ => none

/-- Numbers are what arithmetic operators take. -/
def isNumeric : Value → Bool
  | int _ => true
  | uint _ => true
  | float _ => true
  | wide _ => true
  | _ => false

/-! ## Equality -/

mutual
/-- Equality of values. Variants are told apart, fields have to stand in the same order, and floats
compare by value: both zeros are equal, and NaN equals nothing. -/
def same : Value → Value → Bool
  | null, null => true
  | bool a, bool b => a == b
  | int a, int b => a == b
  | uint a, uint b => a == b
  | float a, float b => a.sameValue b
  | wide a, wide b => a == b
  | string a, string b => a == b
  | instant a, instant b => a == b
  | uuid a, uuid b => a == b
  | array as, array bs => sameItems as bs
  | object as, object bs => sameFields as bs
  | _, _ => false

def sameItems : List Value → List Value → Bool
  | [], [] => true
  | a :: as, b :: bs => same a b && sameItems as bs
  | _, _ => false

def sameFields : List (String × Value) → List (String × Value) → Bool
  | [], [] => true
  | (k, a) :: as, (l, b) :: bs => k == l && same a b && sameFields as bs
  | _, _ => false
end

instance : BEq Value := ⟨same⟩

end Value

def Fields.same (a b : Fields) : Bool := Value.sameFields a b

end DocWire
