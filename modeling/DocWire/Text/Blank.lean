import DocWire.Text.Ranges

/-!
# Blank text

A name is blank when it holds nothing but characters of the Unicode property White_Space.
-/
set_option autoImplicit false

namespace DocWire

/-- The first and last code points of each range of the property White_Space. -/
def blankRanges : CodeRanges :=
  [(0x09, 0x0D), (0x20, 0x20), (0x85, 0x85), (0xA0, 0xA0), (0x1680, 0x1680), (0x2000, 0x200A),
    (0x2028, 0x2029), (0x202F, 0x202F), (0x205F, 0x205F), (0x3000, 0x3000)]

def isBlankChar (c : Char) : Bool := blankRanges.covers c

/-- Text of white space only; the empty text is blank too. -/
def isBlank (text : String) : Bool := text.toList.all isBlankChar

example : blankRanges.isOrdered = true := by decide
example : blankRanges.count = 25 := by decide
example : isBlank "" = true := by decide
example : isBlank " \t" = true := by decide
example : isBlank "a " = false := by decide

end DocWire
