import DocWire.Json.Quoted

/-!
# Writing piece by piece

A wire text is put together from left to right, and no tree stands behind it. Every step takes the text
so far and hands on a longer one.
-/
set_option autoImplicit false

namespace DocWire

def pushString (s : String) (out : String) : String := out ++ String.ofList (Json.quoted s)

def pushKey (name : String) (out : String) : String := (pushString name out).push ':'

/-- Writes the comma in front of a piece, which the first one does without. -/
def pushComma (i : Nat) (out : String) : String := if 0 < i then out.push ',' else out

/-- Writes pieces with commas between them; the first of the list is the one numbered `i`. -/
def pushEach {ε α : Type} (write : α → String → Except ε String) (i : Nat) :
    List α → String → Except ε String
  | [], out => .ok out
  | piece :: rest, out => do
    let out ← write piece (pushComma i out)
    pushEach write (i + 1) rest out

end DocWire
