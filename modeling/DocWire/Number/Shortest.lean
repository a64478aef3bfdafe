import DocWire.Number.Decimal

/-!
# The shortest decimal of a double

A decimal reads back as a double when it lies among the reals that round to it: between the two
midpoints to the neighbours, the midpoints themselves belonging to even mantissas. `shortest` is
the decimal with the fewest digits that reads back: a multiple of the largest possible power of
ten, of several such multiples the nearest, of two equally near the one that a `Tie` chooses.
`Binary64.text` writes the one with an even last digit, positionally where the leading digit stands
between `10 ^ -5` and `10 ^ 15`, with a power of ten elsewhere.
-/
set_option autoImplicit false

namespace DocWire

structure Fraction where
  num : Nat
  den : Nat
deriving DecidableEq, Repr

namespace Fraction

def scaled (n base : Nat) (power : Int) : Fraction :=
  ⟨n * Nat.pow base power.toNat, Nat.pow base (-power).toNat⟩

def le (a b : Fraction) : Bool := a.num * b.den ≤ b.num * a.den

def lt (a b : Fraction) : Bool := a.num * b.den < b.num * a.den

def distance (a b : Fraction) : Fraction :=
  ⟨max (a.num * b.den) (b.num * a.den) - min (a.num * b.den) (b.num * a.den), a.den * b.den⟩

end Fraction

/-- Which of two equally near neighbours to choose: the even one, or the greater one. -/
inductive Tie where
  | even
  | up
deriving DecidableEq, Repr

def Tie.choose : Tie → Nat → Nat
  | even, n => if n % 2 = 0 then n else n + 1
  | up, n => n + 1

namespace Binary64

/-- Whether the neighbour below is only half as far away as the neighbour above. -/
def narrowBelow (x : Binary64) : Bool := x.magnitude % 0x10000000000000 = 0 && 0x10000000000000 < x.magnitude

def lowerBound (x : Binary64) : Fraction :=
  .scaled (if x.narrowBelow then 4 * x.mantissa - 1 else 4 * x.mantissa - 2) 2 (x.scale - 2)

def upperBound (x : Binary64) : Fraction := .scaled (4 * x.mantissa + 2) 2 (x.scale - 2)

def value (x : Binary64) : Fraction := .scaled x.mantissa 2 x.scale

/-- Whether `n * 10 ^ power` rounds to a finite double other than zero. -/
def readsBack (x : Binary64) (n : Nat) (power : Int) : Bool :=
  let d := Fraction.scaled n 10 power
  if x.mantissa % 2 = 0 then x.lowerBound.le d && d.le x.upperBound
  else x.lowerBound.lt d && d.lt x.upperBound

def floorAt (x : Binary64) (power : Int) : Nat :=
  let v := x.value
  v.num * tenPow (-power).toNat / (v.den * tenPow power.toNat)

/-- The best multiple of `10 ^ power` that reads back, if one does. Only the two multiples around
the value can: the reals that round to a double are an interval around it. -/
def bestAt (tie : Tie) (x : Binary64) (power : Int) : Option Nat :=
  let low := x.floorAt power
  match x.readsBack low power, x.readsBack (low + 1) power with
  | false, false => none
  | true, false => some low
  | false, true => some (low + 1)
  | true, true =>
    let below := x.value.distance (.scaled low 10 power)
    let above := x.value.distance (.scaled (low + 1) 10 power)
    if below.lt above then some low
    else if above.lt below then some (low + 1)
    else some (tie.choose low)

/-- Searches the powers of ten downwards. -/
def shortestFrom (tie : Tie) (x : Binary64) : Nat → Int → Nat × Int
  | 0, power => (x.floorAt power, power)
  | steps + 1, power =>
    match x.bestAt tie power with
    | some n => (n, power)
    | none => shortestFrom tie x steps (power - 1)

/-- A power of ten above twice the value of a finite double: `30103 / 100000` is `log10 2` rounded
up, and the two further places cover what is lost for small values. -/
def searchStart (x : Binary64) : Int := ((x.mantissa.log2 : Int) + x.scale + 1) * 30103 / 100000 + 3

/-- The shortest decimal of a finite double, without sign. Seventeen digits tell all doubles apart,
so the search ends long before its thirty steps are used up. -/
def shortest (tie : Tie) (x : Binary64) : Nat × Int :=
  if x.isZero then (0, 0) else x.shortestFrom tie 30 x.searchStart

end Binary64

/-! ## Layout -/

namespace Decimal

def positional (ds : List Char) (order : Int) : List Char :=
  if order ≤ 0 then
    '0' :: '.' :: (List.replicate (-order).toNat '0' ++ ds)
  else
    let whole := ds.take order.toNat
    let part := ds.drop order.toNat
    whole ++ List.replicate (order.toNat - whole.length) '0' ++
      '.' :: (if part.isEmpty then ['0'] else part)

def scientific (ds : List Char) (order : Int) : List Char :=
  let power := order - 1
  ds.take 1 ++ (if ds.length ≤ 1 then [] else '.' :: ds.drop 1) ++
    'e' :: (if power < 0 then '-' else '+') :: digits power.natAbs

/-- The written form of `n * 10 ^ power`: positional for leading digits from `10 ^ -5` to
`10 ^ 15`. -/
def layout (n : Nat) (power : Int) : List Char :=
  let ds := digits n
  let order : Int := (ds.length : Int) + power
  if -4 ≤ order ∧ order ≤ 16 then positional ds order else scientific ds order

/-- The written form of `n * 10 ^ power` without a power of ten, and with a point only before
digits. -/
def plain (n : Nat) (power : Int) : List Char :=
  let ds := digits n
  let order : Int := (ds.length : Int) + power
  if n = 0 then ['0']
  else if order ≤ 0 then positional ds order
  else if (ds.length : Int) ≤ order then ds ++ List.replicate (order.toNat - ds.length) '0'
  else ds.take order.toNat ++ '.' :: ds.drop order.toNat

end Decimal

namespace Binary64

/-- The text of a double: the shortest decimal that reads back, with a sign. -/
def chars (x : Binary64) : List Char :=
  if x.isNaN then "NaN".toList
  else
    let sign := if x.negative then ['-'] else []
    if x.isFinite then sign ++ Decimal.layout (x.shortest .even).1 (x.shortest .even).2
    else sign ++ "inf".toList

def text (x : Binary64) : String := String.ofList x.chars

/-- The text of a finite double without a power of ten: the digits of its shortest decimal, of two
equally near ones the greater. -/
def plainText (x : Binary64) : String :=
  String.ofList ((if x.negative then ['-'] else []) ++
    Decimal.plain (x.shortest .up).1 (x.shortest .up).2)

-- The double `2 ^ 50 + 5 / 4` lies halfway between two shortest decimals.
example : (ofRatio false 4503599627370501 4).text = "1125899906842625.2" := by decide +kernel
example : (ofRatio false 4503599627370501 4).plainText = "1125899906842625.3" := by decide +kernel

example : (ofDecimal ⟨false, 1, 41⟩).plainText = "1" ++ String.join (List.replicate 41 "0") := by
  decide +kernel
example : (ofDecimal ⟨true, 1, -6⟩).plainText = "-0.000001" := by decide +kernel
example : (ofDecimal ⟨false, 1, -1⟩).text = "0.1" := by decide +kernel
example : (ofDecimal ⟨true, 15, 299⟩).text = "-1.5e+300" := by decide +kernel
example : (ofDecimal ⟨false, 1, 23⟩).text = "1e+23" := by decide +kernel
example : (ofDecimal ⟨false, 1, -5⟩).text = "0.00001" := by decide +kernel
example : (ofDecimal ⟨false, 1, 15⟩).text = "1000000000000000.0" := by decide +kernel
example : (Binary64.mk 1).text = "5e-324" := by decide +kernel

end Binary64
end DocWire
