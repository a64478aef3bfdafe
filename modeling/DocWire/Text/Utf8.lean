/-!
# Bytes as text

Where bytes are not UTF-8, a reader still has to say which fault it meets first. `Symbol` is what a
byte sequence looks like to a reader: a character, or a stray byte that belongs to no character.
-/
set_option autoImplicit false

namespace DocWire

/-- A character, or nothing for a byte that belongs to none. -/
abbrev Symbol := Option Char

namespace Symbol

def width : Symbol → Nat
  | none => 1
  | some c => c.utf8Size

def ofText (text : String) : List Symbol := text.toList.map some

/-- A continuation byte's six bits. -/
def continuation? (b : UInt8) : Option Nat :=
  if 0x80 ≤ b ∧ b ≤ 0xBF then some (b.toNat - 0x80) else none

/-- The character at the front of a byte sequence. Overlong forms, surrogates and numbers past the
last code point are no characters. -/
def first? : List UInt8 → Option (Char × List UInt8)
  | [] => none
  | a :: rest =>
    if a < 0x80 then some (Char.ofNat a.toNat, rest)
    else if a < 0xE0 then
      match rest with
      | b :: rest => do
        let n := (a.toNat - 0xC0) * 0x40 + (← continuation? b)
        guard (0xC2 ≤ a)
        some (Char.ofNat n, rest)
      | _ => none
    else if a < 0xF0 then
      match rest with
      | b :: c :: rest => do
        let n := ((a.toNat - 0xE0) * 0x40 + (← continuation? b)) * 0x40 + (← continuation? c)
        guard (0x800 ≤ n ∧ ¬(0xD800 ≤ n ∧ n ≤ 0xDFFF))
        some (Char.ofNat n, rest)
      | _ => none
    else
      match rest with
      | b :: c :: d :: rest => do
        let n := (((a.toNat - 0xF0) * 0x40 + (← continuation? b)) * 0x40 + (← continuation? c)) * 0x40
          + (← continuation? d)
        guard (0x10000 ≤ n ∧ n ≤ 0x10FFFF)
        some (Char.ofNat n, rest)
      | _ => none

/-- The symbols of at most `count` characters and stray bytes. -/
def decode : Nat → List UInt8 → List Symbol
  | 0, _ => []
  | _ + 1, [] => []
  | count + 1, bytes@(_ :: rest) =>
    match first? bytes with
    | some (c, rest) => some c :: decode count rest
    | none => none :: decode count rest

def ofBytes (bytes : ByteArray) : List Symbol :=
  match String.fromUTF8? bytes with
  | some text => ofText text
  | none => decode bytes.size bytes.data.toList

end Symbol
end DocWire
