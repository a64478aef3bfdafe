import DocWire.Number.Decimal

/-!
# Doubles read in one pass

The typed reader takes a number's digits into 64 bits as they come and then scales by one power of
ten. It rounds up to three times, so the result may miss the nearest double. Digits of the whole
part that do not fit are dropped and raise the exponent; in the fraction reading stops at the first
digit that does not fit. Too large a number is an error, too small a number is zero.
-/
set_option autoImplicit false

namespace DocWire

namespace Binary64

def mul (x y : Binary64) : Binary64 :=
  let scale := x.scale + y.scale
  ofRatio (x.negative != y.negative) ((x.mantissa * y.mantissa) <<< scale.toNat)
    (1 <<< (-scale).toNat)

/-- The quotient of two finite doubles, rounded once; the divisor is not zero. -/
def div (x y : Binary64) : Binary64 :=
  let scale := x.scale - y.scale
  ofRatio (x.negative != y.negative) (x.mantissa <<< scale.toNat) (y.mantissa <<< (-scale).toNat)

def neg (x : Binary64) : Binary64 := ofMagnitude (!x.negative) x.magnitude

end Binary64

namespace Quick

def maxSignificand : Nat := 0xFFFFFFFFFFFFFFFF

/-- Appends digits to a significand as long as it fits; what is left over comes second. -/
def append (significand : Nat) : List Char → Nat × List Char
  | [] => (significand, [])
  | c :: rest =>
    let next := 10 * significand + digitValue c
    if next ≤ maxSignificand then append next rest else (significand, c :: rest)

def maxPower : Nat := 308

def powerOfTen (n : Nat) : Binary64 := Binary64.ofRatio false (tenPow n) 1

/-- A significand times a power of ten. Below `10 ^ -maxPower` the division is done in two steps;
below twice that nothing is left of any significand. -/
def scaled? (significand : Nat) (power : Int) : Option Binary64 :=
  let x := Binary64.ofRatio false significand 1
  if significand = 0 then some x
  else if 0 ≤ power then
    if maxPower < power then none
    else
      let product := x.mul (powerOfTen power.toNat)
      if product.isFinite then some product else none
  else
    let n := (-power).toNat
    if n ≤ maxPower then some (x.div (powerOfTen n))
    else if n ≤ 2 * maxPower then
      some ((x.div (powerOfTen maxPower)).div (powerOfTen (n - maxPower)))
    else some (Binary64.zero false)

def fraction : List Char → List Char × List Char
  | '.' :: rest => (rest.takeWhile isDigit, rest.dropWhile isDigit)
  | rest => ([], rest)

/-- Powers of ten that are written with more than 31 bits are not computed with. -/
def maxExponent : Nat := 0x7FFFFFFF

/-- The value of a significand at a power of ten, with what may follow: the mark and the digits of
another power of ten. -/
def withPower? (significand : Nat) (power : Int) : List Char → Option Binary64
  | [] => scaled? significand power
  | _ :: sign :: ds =>
    let n := ofDigits ds
    if sign = '-' then
      if maxExponent < n then some (Binary64.zero false) else scaled? significand (power - n)
    else if maxExponent < n then
      if significand = 0 then some (Binary64.zero false) else none
    else scaled? significand (power + n)
  | _ => none

def unsigned? (token : List Char) : Option Binary64 :=
  let (significand, dropped) := append 0 (token.takeWhile isDigit)
  let (digits, rest) := fraction (token.dropWhile isDigit)
  let (significand, ignored) := append significand digits
  withPower? significand ((dropped.length : Int) - ((digits.length : Int) - ignored.length)) rest

/-- The double that a number's text stands for, with the power of ten marked by a letter and a
sign. -/
def ofToken? : List Char → Option Binary64
  | '-' :: token => (unsigned? token).map Binary64.neg
  | token => unsigned? token

example : (ofToken? "-0".toList).map (·.bits) = some 0x8000000000000000 := by decide +kernel
example : ofToken? "1e+309".toList = none := by decide +kernel
example : (ofToken? "0.1".toList).map (·.bits) = some 0x3FB999999999999A := by decide +kernel

end Quick
end DocWire
