import DocWire.Json.Reader
import DocWire.Number.WideInteger
import DocWire.Number.Shortest

/-!
# Canonical numbers

Numbers keep their text, but not when a whole value passes from hand to hand as a tree: then integers
of up to 128 bits, and doubles in one of their two common spellings, are handed over as numbers and
written anew. All other numbers are handed over as texts, wrapped in an object, and an object that looks
like such a wrapping is taken for one.
-/
set_option autoImplicit false

namespace DocWire.Json

def isHandedOver (n : Int) : Bool :=
  -0x80000000000000000000000000000000 ≤ n && n < 0x100000000000000000000000000000000

/-- The text of a double that a text spells, when it is the shortest or the plain spelling. -/
def canonicalDouble (text : String) : String :=
  match (Binary64.ofText? text).filter Binary64.isFinite with
  | some x => if text = x.text ∨ text = x.plainText then x.text else text
  | none => text

def canonicalNumber (text : String) : String :=
  match (WideInteger.ofText? text).filter fun n => isHandedOver n.value with
  | some n => n.text
  | none => canonicalDouble text

/-- The number that wrapped members stand for; it is handed over as the text that it is. -/
def unwrapped? : Entries Json → Option Json
  | [(_, string text)] => numberOf? text
  | _ => none

mutual
/-- A value after it was handed over, which a wrapped number has to survive. -/
def canonical? : Json → Option Json
  | null => some null
  | bool b => some (bool b)
  | number text => some (number (canonicalNumber text))
  | string s => some (string s)
  | array items => (canonicalItems? items).map array
  | object members =>
    if isWrapped members then unwrapped? members else (canonicalMembers? members).map object

def canonicalItems? : List Json → Option (List Json)
  | [] => some []
  | item :: rest => do some ((← canonical? item) :: (← canonicalItems? rest))

def canonicalMembers? : List (String × Json) → Option (List (String × Json))
  | [] => some []
  | (name, value) :: rest => do some ((name, ← canonical? value) :: (← canonicalMembers? rest))
end

example : canonicalNumber "-0" = "0" := by decide +kernel
example : canonicalNumber "0.000001" = "1e-6" := by decide +kernel
example : canonicalNumber "1.10" = "1.10" := by decide +kernel

end DocWire.Json
