/-!
# Double precision numbers

A double is its 64 bits: a sign, an exponent field of 11 bits and a fraction of 52 bits. All
arithmetic on doubles in this library is exact arithmetic on the integer `mantissa` and the power
of two `scale`, followed by one rounding to nearest with ties to even. Main statement:
`magnitude_lt`, the bits under the sign fill 63 places.
-/
set_option autoImplicit false

namespace DocWire

/-- A double precision number, given by its bits. -/
structure Binary64 where
  bits : UInt64
deriving DecidableEq, Repr, Inhabited

/-- A binary floating point layout: mantissas have `precision` bits, the least power of two is
`minScale`, and encodings from `infinity` on are not finite. -/
structure BinaryLayout where
  precision : Nat
  minScale : Int
  infinity : Nat
deriving DecidableEq, Repr

namespace BinaryLayout

def double : BinaryLayout := ⟨53, -1074, 0x7FF0000000000000⟩

def single : BinaryLayout := ⟨24, -149, 0x7F800000⟩

end BinaryLayout

/-- The integer nearest to a quotient, the even one of two equally near. -/
def roundDiv (num den : Nat) : Nat :=
  let quotient := num / den
  let rest := num % den
  if 2 * rest < den then quotient
  else if den < 2 * rest then quotient + 1
  else if quotient % 2 = 0 then quotient
  else quotient + 1

/-- The greatest `e` with `2 ^ e ≤ num / den`, for positive `num` and `den`. -/
def floorLog2 (num den : Nat) : Int :=
  let guess : Int := (num.log2 : Int) - (den.log2 : Int)
  if num <<< (-guess).toNat < den <<< guess.toNat then guess - 1 else guess

namespace BinaryLayout

/-- The encoding, without sign, of the number of this layout nearest to `num / den`. Mantissas of
adjacent powers of two continue one another, so the power counts the mantissa's carry too, and
whatever reaches past the finite numbers is infinite. -/
def nearest (layout : BinaryLayout) (num den : Nat) : Nat :=
  if num = 0 then 0
  else
    let scale : Int := max (floorLog2 num den - ((layout.precision : Int) - 1)) layout.minScale
    let mantissa := roundDiv (num <<< (-scale).toNat) (den <<< scale.toNat)
    min ((scale - layout.minScale).toNat <<< (layout.precision - 1) + mantissa) layout.infinity

def mantissa (layout : BinaryLayout) (encoding : Nat) : Nat :=
  let field := encoding >>> (layout.precision - 1)
  let leading : Nat := 1 <<< (layout.precision - 1)
  let fraction := encoding % leading
  if field = 0 then fraction else leading + fraction

def scale (layout : BinaryLayout) (encoding : Nat) : Int :=
  let field := encoding >>> (layout.precision - 1)
  if field = 0 then layout.minScale else layout.minScale + (field : Int) - 1

end BinaryLayout

namespace Binary64

def negative (x : Binary64) : Bool := 0x8000000000000000 ≤ x.bits.toNat

def magnitude (x : Binary64) : Nat := x.bits.toNat % 0x8000000000000000

/-- A double from its sign and the bits under it. -/
def ofMagnitude (negative : Bool) (magnitude : Nat) : Binary64 :=
  ⟨UInt64.ofNat ((if negative then 0x8000000000000000 else 0) + magnitude)⟩

def isFinite (x : Binary64) : Bool := x.magnitude < BinaryLayout.double.infinity

def isNaN (x : Binary64) : Bool := BinaryLayout.double.infinity < x.magnitude

def isZero (x : Binary64) : Bool := x.magnitude = 0

def mantissa (x : Binary64) : Nat := BinaryLayout.double.mantissa x.magnitude

def scale (x : Binary64) : Int := BinaryLayout.double.scale x.magnitude

/-- Comparison of values: both zeros are equal, and NaN equals nothing. -/
def sameValue (x y : Binary64) : Bool :=
  !x.isNaN && !y.isNaN && (x.bits == y.bits || (x.isZero && y.isZero))

def ofRatio (negative : Bool) (num den : Nat) : Binary64 :=
  ofMagnitude negative (BinaryLayout.double.nearest num den)

def infinity (negative : Bool) : Binary64 := ofMagnitude negative BinaryLayout.double.infinity

/-- The NaN whose fraction has only its top bit. -/
def nan : Binary64 := ofMagnitude false (BinaryLayout.double.infinity + 0x8000000000000)

def zero (negative : Bool) : Binary64 := ofMagnitude negative 0

/-- The double of the same value as a finite single precision encoding. -/
def ofSingle (negative : Bool) (encoding : Nat) : Binary64 :=
  if BinaryLayout.single.infinity ≤ encoding then infinity negative
  else
    let m := BinaryLayout.single.mantissa encoding
    let s := BinaryLayout.single.scale encoding
    ofRatio negative (m <<< s.toNat) (1 <<< (-s).toNat)

theorem magnitude_lt (x : Binary64) : x.magnitude < 0x8000000000000000 := Nat.mod_lt _ (by decide)

example : (ofRatio false 1 1).bits = 0x3FF0000000000000 := by decide
example : (ofRatio true 1 10).bits = 0xBFB999999999999A := by decide +kernel
example : (ofRatio false 9007199254740993 1).bits = 0x4340000000000000 := by decide +kernel
example : (ofRatio false 1 (1 <<< 1074)).bits = 1 := by decide +kernel
example : ofRatio false (1 <<< 1024) 1 = infinity false := by decide +kernel

end Binary64
end DocWire
