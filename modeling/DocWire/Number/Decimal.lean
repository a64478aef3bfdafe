import DocWire.Number.Binary64

/-!
# Decimal numbers

A decimal is a sign, a whole coefficient and a power of ten. `Decimal.ofText?` reads the common
written form (sign, digits with at most one point, power of ten after `e`), and `Binary64.ofDecimal`
is the double nearest to a decimal. `integer?` reads a whole number and `digits` writes one.
-/
set_option autoImplicit false

namespace DocWire

/-- `coefficient * 10 ^ exponent`, with a sign. -/
structure Decimal where
  negative : Bool
  coefficient : Nat
  exponent : Int
deriving DecidableEq, Repr

/-! ## Digits -/

def isDigit (c : Char) : Bool := '0' ≤ c && c ≤ '9'

def digitValue (c : Char) : Nat := c.toNat - '0'.toNat

def ofDigits (cs : List Char) : Nat := cs.foldl (fun n c => 10 * n + digitValue c) 0

/-- The digits of a number, without leading zeros; zero has the one digit `0`. -/
def digits (n : Nat) : List Char := Nat.toDigits 10 n

def signedDigits (n : Int) : List Char :=
  if n < 0 then '-' :: digits n.natAbs else digits n.natAbs

def natural? (cs : List Char) : Option Nat :=
  if cs ≠ [] ∧ cs.all isDigit then some (ofDigits cs) else none

def integer? : List Char → Option Int
  | '-' :: cs => (natural? cs).map fun n => -(n : Int)
  | cs => (natural? cs).map fun n => (n : Int)

def paddedDigits (width n : Nat) : List Char :=
  let ds := digits n
  List.replicate (width - ds.length) '0' ++ ds

def tenPow (n : Nat) : Nat := Nat.pow 10 n

/-! ## Written decimals -/

namespace Decimal

def power? : List Char → Option Int
  | '+' :: cs => (natural? cs).map fun n => (n : Int)
  | cs => integer? cs

def unsigned? (negative : Bool) (cs : List Char) : Option Decimal := do
  let whole := cs.takeWhile isDigit
  let rest := cs.dropWhile isDigit
  let (part, rest) := match rest with
    | '.' :: rest => (rest.takeWhile isDigit, rest.dropWhile isDigit)
    | rest => ([], rest)
  guard (whole ≠ [] ∨ part ≠ [])
  let power ← match rest with
    | [] => some 0
    | c :: rest => if c = 'e' ∨ c = 'E' then power? rest else none
  some ⟨negative, ofDigits (whole ++ part), power - part.length⟩

/-- Reads a decimal: a sign, digits with at most one point among or beside them, and a power of ten
marked by `e`. -/
def ofChars? : List Char → Option Decimal
  | '-' :: cs => unsigned? true cs
  | '+' :: cs => unsigned? false cs
  | cs => unsigned? false cs

def ratio (d : Decimal) : Nat × Nat :=
  (d.coefficient * tenPow d.exponent.toNat, tenPow (-d.exponent).toNat)

/-- The position of the leading digit: a nonzero decimal lies from `10 ^ (order - 1)` up to, but
not including, `10 ^ order`. -/
def order (d : Decimal) : Int := ((digits d.coefficient).length : Int) + d.exponent

/-- The encoding nearest to a decimal. Decimals far outside the layout's range are settled by
their order alone. -/
def nearest (layout : BinaryLayout) (d : Decimal) : Nat :=
  if d.coefficient = 0 ∨ d.order < -400 then 0
  else if 400 < d.order then layout.infinity
  else layout.nearest d.ratio.1 d.ratio.2

end Decimal

namespace Binary64

def ofDecimal (d : Decimal) : Binary64 := ofMagnitude d.negative (d.nearest .double)

/-- The value of the single precision number nearest to a decimal. -/
def ofDecimalSingle (d : Decimal) : Binary64 := ofSingle d.negative (d.nearest .single)

/-- The words for the numbers that have no digits, in any case. -/
def word? (negative : Bool) (cs : List Char) : Option Binary64 :=
  let word := cs.map Char.toLower
  if word = "inf".toList ∨ word = "infinity".toList then some (infinity negative)
  else if word = "nan".toList then some nan
  else none

def signedWord? : List Char → Option Binary64
  | '-' :: cs => word? true cs
  | '+' :: cs => word? false cs
  | cs => word? false cs

def ofText? (text : String) : Option Binary64 :=
  (Decimal.ofChars? text.toList).map ofDecimal <|> signedWord? text.toList

/-- Reads a decimal or a word, rounded to single precision. -/
def ofTextSingle? (text : String) : Option Binary64 :=
  (Decimal.ofChars? text.toList).map ofDecimalSingle <|> signedWord? text.toList

end Binary64
end DocWire
