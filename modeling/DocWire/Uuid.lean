import DocWire.Text.Hex

/-!
# Universally unique identifiers

An identifier is a number of 128 bits. It is written as 32 lower case hexadecimal digits in five
groups, and read in any of four forms: plain digits, groups, groups in braces, and groups after
`urn:uuid:`.
-/
set_option autoImplicit false

namespace DocWire

structure Uuid where
  value : BitVec 128
deriving DecidableEq, Repr

namespace Uuid

/-- The 32 digits without hyphens. -/
def simpleChars (u : Uuid) : List Char := hexDigits 32 u.value.toNat

def simple (u : Uuid) : String := String.ofList u.simpleChars

/-- Puts hyphens after the digits 8, 12, 16 and 20. -/
def grouped (ds : List Char) : List Char :=
  ds.take 8 ++ '-' :: (ds.drop 8).take 4 ++ '-' :: (ds.drop 12).take 4 ++
    '-' :: (ds.drop 16).take 4 ++ '-' :: ds.drop 20

def chars (u : Uuid) : List Char := grouped u.simpleChars

def text (u : Uuid) : String := String.ofList u.chars

def ofSimple? (cs : List Char) : Option Uuid :=
  if cs.length = 32 then (ofHex? cs).map fun n => ⟨BitVec.ofNat 128 n⟩ else none

def ofGrouped? (cs : List Char) : Option Uuid :=
  let ds := cs.filter (· ≠ '-')
  if cs = grouped ds then ofSimple? ds else none

/-- Reads any of the four forms. -/
def ofText? (text : String) : Option Uuid :=
  let cs := text.toList
  if cs.length = 32 then ofSimple? cs
  else if cs.length = 38 ∧ cs.head? = some '{' ∧ cs.getLast? = some '}' then
    ofGrouped? (cs.drop 1).dropLast
  else if cs.length = 45 ∧ cs.take 9 = "urn:uuid:".toList then ofGrouped? (cs.drop 9)
  else ofGrouped? cs

example : (ofText? "67E55044-10B1-426F-9247-BB680E5FE0C8").map text =
    some "67e55044-10b1-426f-9247-bb680e5fe0c8" := by decide +kernel

end Uuid
end DocWire
