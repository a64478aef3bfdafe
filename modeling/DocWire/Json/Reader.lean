import DocWire.Json.Basic
import DocWire.Text.Hex
import DocWire.Text.Utf8
import DocWire.Number.Decimal

/-!
# Reading JSON

A strict reader. It works on the symbols of a text from left to right, and the first problem it
meets decides the fault: `ended` when the text stops short of a complete value, `malformed` for
everything else. A reader takes a budget of steps for its loops, which the number of symbols always
covers, and the number of containers it may still open.

Numbers keep their text, except that a power of ten is written `e+N` or `e-N`. Of members of one
name the last value counts, at the place of the first. One name is reserved: an object that opens with
`numberName` is no object but a number, wrapped, and has to hold the text of the number and no more.
-/
set_option autoImplicit false

namespace DocWire.Json

/-- A step of reading: a result and the symbols after it. -/
abbrev Reader (α : Type) := List Symbol → Except Fault (α × List Symbol)

/-! ## Tokens -/

def isSpace (c : Symbol) : Bool := c = some ' ' || c = some '\n' || c = some '\t' || c = some '\r'

def skipSpace (cs : List Symbol) : List Symbol := cs.dropWhile isSpace

def word : List Char → Reader Unit
  | [], cs => .ok ((), cs)
  | _ :: _, [] => .error .ended
  | c :: rest, s :: cs => if s = some c then word rest cs else .error .malformed

def isDigitSymbol : Symbol → Bool
  | some c => isDigit c
  | none => false

def digitRun (cs : List Symbol) : List Char × List Symbol :=
  ((cs.takeWhile isDigitSymbol).filterMap id, cs.dropWhile isDigitSymbol)

def someDigits (cs : List Symbol) : Except Fault (List Char × List Symbol) :=
  match digitRun cs with
  | ([], []) => .error .ended
  | ([], _ :: _) => .error .malformed
  | (ds, rest) => .ok (ds, rest)

/-- Reads the whole part of a number: one zero, or digits that do not start with one. -/
def wholePart (cs : List Symbol) : Except Fault (List Char × List Symbol) := do
  let (ds, rest) ← someDigits cs
  if ds.head? = some '0' ∧ 1 < ds.length then .error .malformed else .ok (ds, rest)

def pointPart : List Symbol → Except Fault (List Char × List Symbol)
  | some '.' :: cs => do
    let (ds, rest) ← someDigits cs
    .ok ('.' :: ds, rest)
  | cs => .ok ([], cs)

def powerSign : List Symbol → Char × List Symbol
  | some '-' :: cs => ('-', cs)
  | some '+' :: cs => ('+', cs)
  | cs => ('+', cs)

/-- Reads the power of ten, if there is one, and gives it a sign. -/
def powerPart : List Symbol → Except Fault (List Char × List Symbol)
  | some c :: cs =>
    if c = 'e' ∨ c = 'E' then do
      let (sign, cs) := powerSign cs
      let (ds, rest) ← someDigits cs
      .ok ('e' :: sign :: ds, rest)
    else .ok ([], some c :: cs)
  | cs => .ok ([], cs)

def magnitudeToken (cs : List Symbol) : Except Fault (List Char × List Symbol) := do
  let (whole, cs) ← wholePart cs
  let (point, cs) ← pointPart cs
  let (power, cs) ← powerPart cs
  .ok (whole ++ point ++ power, cs)

def numberToken : List Symbol → Except Fault (List Char × List Symbol)
  | some '-' :: cs => do
    let (token, cs) ← magnitudeToken cs
    .ok ('-' :: token, cs)
  | cs => magnitudeToken cs

/-! ## Strings -/

/-- Reads the four digits of an escaped code. Where fewer than four bytes are left the text has
ended, whatever they are. -/
def codeUnit : List Symbol → Except Fault (Nat × List Symbol)
  | some a :: some b :: some c :: some d :: cs =>
    match ofHex? [a, b, c, d] with
    | some n => .ok (n, cs)
    | none => .error .malformed
  | cs => if (cs.take 4).foldl (fun n c => n + c.width) 0 < 4 then .error .ended else .error .malformed

/-- Reads a code after `u`. A leading surrogate and the trailing one after it make one character;
neither may stand alone. -/
def escapedCode (cs : List Symbol) : Except Fault (Char × List Symbol) := do
  let (n, cs) ← codeUnit cs
  if 0xDC00 ≤ n ∧ n ≤ 0xDFFF then .error .malformed
  else if 0xD800 ≤ n ∧ n ≤ 0xDBFF then
    match cs with
    | [] => .error .ended
    | [some '\\'] => .error .ended
    | some '\\' :: some 'u' :: cs => do
      let (m, cs) ← codeUnit cs
      if 0xDC00 ≤ m ∧ m ≤ 0xDFFF then
        .ok (Char.ofNat (0x10000 + (n - 0xD800) * 0x400 + (m - 0xDC00)), cs)
      else .error .malformed
    | _ => .error .malformed
  else .ok (Char.ofNat n, cs)

def letterEscape? (c : Char) : Option Char :=
  if c = '"' then some '"'
  else if c = '\\' then some '\\'
  else if c = '/' then some '/'
  else if c = 'b' then some '\x08'
  else if c = 'f' then some '\x0c'
  else if c = 'n' then some '\n'
  else if c = 'r' then some '\r'
  else if c = 't' then some '\t'
  else none

def escape : List Symbol → Except Fault (Char × List Symbol)
  | [] => .error .ended
  | some 'u' :: cs => escapedCode cs
  | some c :: cs =>
    match letterEscape? c with
    | some d => .ok (d, cs)
    | none => .error .malformed
  | none :: _ => .error .malformed

def isControl (c : Char) : Bool := c.toNat < 0x20

def stringSymbols : Nat → Reader (List Symbol)
  | 0, _ => .error .malformed
  | _ + 1, [] => .error .ended
  | _ + 1, some '"' :: cs => .ok ([], cs)
  | steps + 1, some '\\' :: cs => do
    let (c, cs) ← escape cs
    let (rest, cs) ← stringSymbols steps cs
    .ok (some c :: rest, cs)
  | steps + 1, none :: cs => do
    let (rest, cs) ← stringSymbols steps cs
    .ok (none :: rest, cs)
  | steps + 1, some c :: cs => do
    if isControl c then .error .malformed
    else
      let (rest, cs) ← stringSymbols steps cs
      .ok (some c :: rest, cs)

def plain? (symbols : List Symbol) : Option String :=
  (symbols.mapM id).map String.ofList

/-- Reads a string after its opening quote. That all of it is text is seen at the closing quote. -/
def stringBody (steps : Nat) (cs : List Symbol) : Except Fault (String × List Symbol) := do
  let (symbols, cs) ← stringSymbols steps cs
  match plain? symbols with
  | some s => .ok (s, cs)
  | none => .error .malformed

/-! ## Containers -/

def itemsFrom {α : Type} (item : Reader α) : Nat → Reader (List α)
  | 0, _ => .error .malformed
  | steps + 1, cs => do
    let (first, cs) ← item cs
    match skipSpace cs with
    | [] => .error .ended
    | some ']' :: cs => .ok ([first], cs)
    | some ',' :: cs =>
      match skipSpace cs with
      | [] => .error .ended
      | some ']' :: _ => .error .malformed
      | cs => do
        let (rest, cs) ← itemsFrom item steps cs
        .ok (first :: rest, cs)
    | _ => .error .malformed

def items {α : Type} (item : Reader α) (steps : Nat) (cs : List Symbol) :
    Except Fault (List α × List Symbol) :=
  match skipSpace cs with
  | [] => .error .ended
  | some ']' :: cs => .ok ([], cs)
  | cs => itemsFrom item steps cs

def nameQuote (cs : List Symbol) : Except Fault (List Symbol) :=
  match skipSpace cs with
  | [] => .error .ended
  | some '"' :: cs => .ok cs
  | _ => .error .malformed

def colon (cs : List Symbol) : Except Fault (List Symbol) :=
  match skipSpace cs with
  | [] => .error .ended
  | some ':' :: cs => .ok cs
  | _ => .error .malformed

def memberName {α : Type} (body : Reader α) (cs : List Symbol) : Except Fault (α × List Symbol) := do
  let cs ← nameQuote cs
  let (name, cs) ← body cs
  let cs ← colon cs
  .ok (name, cs)

def membersFrom {α β : Type} (body : Reader α) (value : Reader β) : Nat → Reader (List (α × β))
  | 0, _ => .error .malformed
  | steps + 1, cs => do
    let (name, cs) ← memberName body cs
    let (first, cs) ← value cs
    match skipSpace cs with
    | [] => .error .ended
    | some '}' :: cs => .ok ([(name, first)], cs)
    | some ',' :: cs => do
      let (rest, cs) ← membersFrom body value steps cs
      .ok ((name, first) :: rest, cs)
    | _ => .error .malformed

def members {α β : Type} (body : Reader α) (value : Reader β) (steps : Nat) (cs : List Symbol) :
    Except Fault (List (α × β) × List Symbol) :=
  match skipSpace cs with
  | [] => .error .ended
  | some '}' :: cs => .ok ([], cs)
  | cs => membersFrom body value steps cs

/-! ## Values -/

/-- Reads a value that is no container; containers are read by the two given readers after their
opening sign. -/
def valueWith (steps : Nat) (array object : Reader Json) (cs : List Symbol) :
    Except Fault (Json × List Symbol) :=
  match skipSpace cs with
  | [] => .error .ended
  | some 'n' :: cs => do
    let ((), cs) ← word "ull".toList cs
    .ok (.null, cs)
  | some 't' :: cs => do
    let ((), cs) ← word "rue".toList cs
    .ok (.bool true, cs)
  | some 'f' :: cs => do
    let ((), cs) ← word "alse".toList cs
    .ok (.bool false, cs)
  | some '"' :: cs => do
    let (s, cs) ← stringBody steps cs
    .ok (.string s, cs)
  | some '[' :: cs => array cs
  | some '{' :: cs => object cs
  | c :: cs =>
    if c = some '-' ∨ isDigitSymbol c then do
      let (token, cs) ← numberToken (c :: cs)
      .ok (.number (String.ofList token), cs)
    else .error .malformed

def scalar (steps : Nat) : Reader Json :=
  valueWith steps (fun _ => .error .malformed) (fun _ => .error .malformed)

/-- Refuses a value, after reading it when it is a scalar. -/
def refuse (steps : Nat) (cs : List Symbol) : Fault :=
  match scalar steps cs with
  | .ok _ => .malformed
  | .error fault => fault

/-- The number that a text spells from its first character to its last. -/
def numberOf? (text : String) : Option Json :=
  match numberToken (Symbol.ofText text) with
  | .ok (token, []) => some (.number (String.ofList token))
  | _ => none

/-- Reads a wrapped number from behind its name and the colon. -/
def wrappedNumber (steps : Nat) : Reader Json := fun cs =>
  match skipSpace cs with
  | some '"' :: rest => do
    let (text, rest) ← stringBody steps rest
    match numberOf? text, skipSpace rest with
    | none, _ => .error .malformed
    | some _, [] => .error .ended
    | some json, some '}' :: rest => .ok (json, rest)
    | some _, _ => .error .malformed
  | _ => .error (refuse steps cs)

def plainObject (steps : Nat) (value : Reader Json) : Reader Json := fun cs => do
  let (members, cs) ← members (stringBody steps) value steps cs
  .ok (.object (Entries.ofList members), cs)

/-- Reads what an opening brace opens, which the first name decides. -/
def braced (steps : Nat) (value : Reader Json) : Reader Json := fun cs =>
  match memberName (stringBody steps) cs with
  | .ok (name, rest) =>
    if name = numberName then wrappedNumber steps rest else plainObject steps value cs
  | .error _ => plainObject steps value cs

/-- Reads a value in which at most the given number of containers nest. -/
def value (steps : Nat) : Nat → Reader Json
  | 0 => scalar steps
  | depth + 1 =>
    valueWith steps
      (fun cs => do
        let (items, cs) ← items (value steps depth) steps cs
        .ok (.array items, cs))
      (braced steps (value steps depth))

def complete {α : Type} (reader : Reader α) (cs : List Symbol) : Except Fault α := do
  let (result, cs) ← reader cs
  if (skipSpace cs).isEmpty then .ok result else .error .malformed

/-- How many containers may nest in a text that comes from outside. -/
def maxDepth : Nat := 127

/-- Reads the value that symbols write, with at most `depth` containers nested. -/
def ofSymbols (depth : Nat) (cs : List Symbol) : Except Fault Json :=
  complete (value (cs.length + 1) depth) cs

def ofText (text : String) : Except Fault Json := ofSymbols maxDepth (Symbol.ofText text)

def ofBytes (bytes : ByteArray) : Except Fault Json := ofSymbols maxDepth (Symbol.ofBytes bytes)

def ofTextUnlimited (text : String) : Except Fault Json :=
  ofSymbols text.toList.length (Symbol.ofText text)

end DocWire.Json
