import DocWire.Value.Basic

/-!
# Numbers of fixed width as field values

An integer becomes the variant that its width calls for: signed variants up to 64 bits, the
unsigned variant for 64 unsigned bits, and for 128 bits the narrowest of the two that the width's
sign allows, with a wide integer for what is left. Integers of source text have no width; they take
the narrowest variant of all, signed first. Main statement: `integer?_ofNative`, no route changes
the number.
-/
set_option autoImplicit false

namespace DocWire

/-- The widths in which a program holds integers. -/
inductive IntegerWidth where
  | signed32
  | unsigned32
  | signed64
  | unsigned64
  | signed128
  | unsigned128
deriving DecidableEq, Repr

namespace IntegerWidth

def least : IntegerWidth → Int
  | signed32 => -0x80000000
  | signed64 => -0x8000000000000000
  | signed128 => -0x80000000000000000000000000000000
  | _ => 0

def greatest : IntegerWidth → Int
  | signed32 => 0x7FFFFFFF
  | unsigned32 => 0xFFFFFFFF
  | signed64 => 0x7FFFFFFFFFFFFFFF
  | unsigned64 => 0xFFFFFFFFFFFFFFFF
  | signed128 => 0x7FFFFFFFFFFFFFFFFFFFFFFFFFFFFFFF
  | unsigned128 => 0xFFFFFFFFFFFFFFFFFFFFFFFFFFFFFFFF

def Holds (width : IntegerWidth) (n : Int) : Prop := width.least ≤ n ∧ n ≤ width.greatest

instance (width : IntegerWidth) (n : Int) : Decidable (width.Holds n) :=
  inferInstanceAs (Decidable (_ ∧ _))

/-- Reads an integer that fits a width. It may have a sign, a minus only where the width has
negative numbers. -/
def read? (width : IntegerWidth) (text : String) : Option Int := do
  let n ← match text.toList with
    | '+' :: cs => (natural? cs).map Int.ofNat
    | '-' :: cs => if width.least < 0 then (natural? cs).map fun n => -(n : Int) else none
    | cs => (natural? cs).map Int.ofNat
  if width.Holds n then some n else none

end IntegerWidth

namespace Value

/-- The signed variant where the number fits it, a wide integer elsewhere. -/
def ofSigned (n : Int) : Value :=
  if IntegerWidth.signed64.Holds n then int (Int64.ofInt n) else wide ⟨n⟩

/-- The unsigned variant where the number fits it, a wide integer elsewhere. -/
def ofUnsigned (n : Int) : Value :=
  if IntegerWidth.unsigned64.Holds n then uint (UInt64.ofNat n.toNat) else wide ⟨n⟩

/-- The narrowest variant that holds a number. -/
def ofInteger (n : Int) : Value :=
  if IntegerWidth.signed64.Holds n then int (Int64.ofInt n) else ofUnsigned n

/-- The value of a number that a program holds in a width. -/
def ofNative : IntegerWidth → Int → Value
  | .unsigned64, n => ofUnsigned n
  | .unsigned128, n => ofUnsigned n
  | _, n => ofSigned n

theorem integer?_ofSigned (n : Int) : (ofSigned n).integer? = some n := by
  unfold ofSigned
  split
  · rename_i h
    simp only [IntegerWidth.Holds, IntegerWidth.least, IntegerWidth.greatest] at h
    simp only [integer?, Option.some.injEq]
    exact Int64.toInt_ofInt_of_le h.1 (by omega)
  · rfl

theorem integer?_ofUnsigned (n : Int) : (ofUnsigned n).integer? = some n := by
  unfold ofUnsigned
  split
  · rename_i h
    simp only [IntegerWidth.Holds, IntegerWidth.least, IntegerWidth.greatest] at h
    simp only [integer?, Option.some.injEq, UInt64.toNat_ofNat']
    rw [Nat.mod_eq_of_lt (by omega)]
    omega
  · rfl

theorem integer?_ofInteger (n : Int) : (ofInteger n).integer? = some n := by
  by_cases h : IntegerWidth.signed64.Holds n
  · have hs := integer?_ofSigned n
    rw [ofSigned, if_pos h] at hs
    rwa [ofInteger, if_pos h]
  · rw [ofInteger, if_neg h]
    exact integer?_ofUnsigned n

/-- No width changes the number that a value stands for. -/
theorem integer?_ofNative (width : IntegerWidth) (n : Int) : (ofNative width n).integer? = some n := by
  cases width
  case unsigned64 => exact integer?_ofUnsigned n
  case unsigned128 => exact integer?_ofUnsigned n
  all_goals exact integer?_ofSigned n

end Value
end DocWire
