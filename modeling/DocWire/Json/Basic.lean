import DocWire.Entries

/-!
# JSON values

A JSON value keeps the order of its members and the text of its numbers. Numbers are texts here
because an integer of any width has to pass through unchanged.
-/
set_option autoImplicit false

namespace DocWire

inductive Json where
  | null
  | bool (b : Bool)
  | number (text : String)
  | string (s : String)
  | array (items : List Json)
  | object (members : List (String × Json))
deriving Inhabited

namespace Json

/-- Why a text is no JSON value: it ended before the value did, or it cannot become one. -/
inductive Fault where
  | ended
  | malformed
deriving DecidableEq, Repr

/-- What a reader of command line messages is told. -/
def Fault.message : Fault → String
  | ended => "unexpected end of text"
  | malformed => "malformed text"

def kind : Json → String
  | null => "null"
  | bool _ => "bool"
  | number _ => "number"
  | string _ => "string"
  | array _ => "array"
  | object _ => "object"

/-- The word that a value chooses: a string chooses itself, and an object with one member of value
null chooses the member's name. -/
def choice? : Json → Option String
  | string s => some s
  | object [(name, null)] => some name
  | _ => none

/-! ## Wrapped numbers

A number of any length may travel as an object whose only member, under a reserved name, is its text.
-/

def numberName : String := "$serde_json::private::Number"

/-- Whether the first name is the reserved one. It is then a number that the members stand for, or
nothing. -/
def isWrapped (members : Entries Json) : Bool := members.keys.head? = some numberName

/-! ## Depth -/

mutual
/-- How deep arrays and objects nest; a scalar has depth zero. -/
def depth : Json → Nat
  | array items => itemsDepth items + 1
  | object members => membersDepth members + 1
  | null => 0
  | bool _ => 0
  | number _ => 0
  | string _ => 0

def itemsDepth : List Json → Nat
  | [] => 0
  | item :: rest => max (depth item) (itemsDepth rest)

def membersDepth : List (String × Json) → Nat
  | [] => 0
  | (_, value) :: rest => max (depth value) (membersDepth rest)
end

end Json
end DocWire
