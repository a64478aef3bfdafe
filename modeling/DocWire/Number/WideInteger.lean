import DocWire.Number.Decimal

/-!
# Integers of any width

A wide integer is an integer; its text is its canonical decimal form, so two wide integers are equal
exactly when their texts are. Reading accepts every decimal spelling, with leading zeros and with
signed zeros.
-/
set_option autoImplicit false

namespace DocWire

/-- An integer of any width. -/
structure WideInteger where
  value : Int
deriving DecidableEq, Repr

namespace WideInteger

/-- Reads an optional minus sign and at least one digit. -/
def ofText? (text : String) : Option WideInteger := (integer? text.toList).map WideInteger.mk

def chars (n : WideInteger) : List Char := signedDigits n.value

def text (n : WideInteger) : String := String.ofList n.chars

def isNegative (n : WideInteger) : Bool := n.value < 0

end WideInteger
end DocWire
