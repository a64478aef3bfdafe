import DocWire.Text.Hex

/-!
# Strings in TOML

TOML writes strings between double quotes, where a backslash starts an escape, or between single
quotes, where nothing is escaped. Between tripled quotes both forms may hold line breaks, and up to
two quotes in a row. Readers start after the opening quotes and return what follows the closing
ones.
-/
set_option autoImplicit false

namespace DocWire.Toml

abbrev Reader (α : Type) := List Char → Option (α × List Char)

/-- A character that may not stand in a document as itself, tabs apart. Line breaks are among
them. -/
def isControl (c : Char) : Bool := (c.toNat < 0x20 && c ≠ '\t') || c.toNat = 0x7F

def isBlank (c : Char) : Bool := c = ' ' || c = '\t'

def lineBreak? : List Char → Option (List Char)
  | '\n' :: rest => some rest
  | '\r' :: '\n' :: rest => some rest
  | _ => none

/-! ## Escapes -/

/-- Reads the character of a code with a fixed number of digits. -/
def codePoint (width : Nat) (cs : List Char) : Option (Char × List Char) := do
  guard (width ≤ cs.length)
  let n ← ofHex? (cs.take width)
  guard (n < 0xD800 ∨ (0xDFFF < n ∧ n < 0x110000))
  some (Char.ofNat n, cs.drop width)

def escape : List Char → Option (Char × List Char)
  | 'b' :: rest => some ('\x08', rest)
  | 't' :: rest => some ('\t', rest)
  | 'n' :: rest => some ('\n', rest)
  | 'f' :: rest => some ('\x0c', rest)
  | 'r' :: rest => some ('\r', rest)
  | 'e' :: rest => some ('\x1b', rest)
  | '"' :: rest => some ('"', rest)
  | '\\' :: rest => some ('\\', rest)
  | 'x' :: rest => codePoint 2 rest
  | 'u' :: rest => codePoint 4 rest
  | 'U' :: rest => codePoint 8 rest
  | _ => none

def dropSpace : List Char → List Char
  | '\r' :: '\n' :: rest => dropSpace rest
  | c :: rest => if isBlank c ∨ c = '\n' then dropSpace rest else c :: rest
  | [] => []

/-- What follows a line break that a backslash takes out, with all the space after it. -/
def foldedBreak? (cs : List Char) : Option (List Char) :=
  (lineBreak? (cs.dropWhile isBlank)).map dropSpace

/-! ## Strings of one line -/

def literal : Reader (List Char)
  | [] => none
  | c :: rest =>
    if c = '\'' then some ([], rest)
    else if isControl c then none
    else do
      let (s, rest) ← literal rest
      some (c :: s, rest)

def basic : Nat → Reader (List Char)
  | 0, _ => none
  | _ + 1, [] => none
  | steps + 1, c :: rest =>
    if c = '"' then some ([], rest)
    else if c = '\\' then do
      let (d, rest) ← escape rest
      let (s, rest) ← basic steps rest
      some (d :: s, rest)
    else if isControl c then none
    else do
      let (s, rest) ← basic steps rest
      some (c :: s, rest)

/-! ## Strings of several lines -/

def run (quote : Char) (cs : List Char) : Nat := (cs.takeWhile (· = quote)).length

/-- Reads a string that tripled quotes enclose. The closing quotes are the last three of up to five
in a row, and line breaks stay as they are written. -/
def multiLine (quote : Char) (escapes : Bool) : Nat → Reader (List Char)
  | 0, _ => none
  | _ + 1, [] => none
  | steps + 1, c :: rest =>
    if c = quote ∧ 3 ≤ run quote (c :: rest) then
      let count := run quote (c :: rest)
      if count ≤ 5 then some (List.replicate (count - 3) quote, (c :: rest).drop count) else none
    else if escapes ∧ c = '\\' then
      match foldedBreak? rest with
      | some rest => multiLine quote escapes steps rest
      | none => do
        let (d, rest) ← escape rest
        let (s, rest) ← multiLine quote escapes steps rest
        some (d :: s, rest)
    else if isControl c ∧ (lineBreak? (c :: rest)).isNone then none
    else do
      let (s, rest) ← multiLine quote escapes steps rest
      some (c :: s, rest)

/-- Reads a string of several lines; a line break right after the opening quotes is no part of
it. -/
def multiLineBody (quote : Char) (escapes : Bool) (cs : List Char) : Option (List Char × List Char) :=
  multiLine quote escapes (cs.length + 1) ((lineBreak? cs).getD cs)

def lineString : Reader (List Char)
  | '"' :: rest => basic (rest.length + 1) rest
  | '\'' :: rest => literal rest
  | _ => none

def anyString : Reader (List Char)
  | '"' :: '"' :: '"' :: rest => multiLineBody '"' true rest
  | '\'' :: '\'' :: '\'' :: rest => multiLineBody '\'' false rest
  | cs => lineString cs

end DocWire.Toml
