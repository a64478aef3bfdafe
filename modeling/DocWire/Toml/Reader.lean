import DocWire.Entries
import DocWire.Number.Decimal
import DocWire.Toml.Quoted

/-!
# TOML documents of strings and integers

Settings need no more of TOML than keys with string or integer values, on lines of their own. A
document that holds anything else is refused, and so is one that gives a key twice.
-/
set_option autoImplicit false

namespace DocWire.Toml

/-- A value of a key. -/
inductive Value where
  | string (s : String)
  | integer (n : Int)
deriving DecidableEq, Repr

/-! ## Integers -/

/-- Drops the underscores of a number; each has to stand between digits. -/
def ungrouped? (cs : List Char) : Option (List Char) :=
  let groups := cs.splitOn '_'
  if groups.all fun group => group ≠ [] then some groups.flatten else none

def inBase? (base : Nat) (cs : List Char) : Option Int := do
  let ds ← ungrouped? cs
  let values ← ds.mapM hexValue?
  guard (values.all (· < base))
  some (values.foldl (fun n d => base * n + d) 0 : Nat)

/-- Reads decimal digits, which do not start with a zero unless there is only one. -/
def decimal? (cs : List Char) : Option Int := do
  let ds ← ungrouped? cs
  guard (ds.head? ≠ some '0' ∨ ds.length = 1)
  let n ← natural? ds
  some n

def integer? : List Char → Option Int
  | '0' :: 'x' :: cs => inBase? 16 cs
  | '0' :: 'o' :: cs => inBase? 8 cs
  | '0' :: 'b' :: cs => inBase? 2 cs
  | '+' :: cs => decimal? cs
  | '-' :: cs => (decimal? cs).map fun n => -n
  | cs => decimal? cs

/-! ## Lines -/

def isBareKeyChar (c : Char) : Bool := c.isAlphanum || c = '_' || c = '-'

def key (cs : List Char) : Option (List Char × List Char) :=
  match lineString cs with
  | some result => some result
  | none =>
    let name := cs.takeWhile isBareKeyChar
    if name.isEmpty then none else some (name, cs.dropWhile isBareKeyChar)

/-- A character that ends a value without quotes. -/
def endsValue (c : Char) : Bool := isBlank c || isControl c || c = '#'

def value (cs : List Char) : Option (Value × List Char) :=
  if cs.head? = some '"' ∨ cs.head? = some '\'' then do
    let (s, rest) ← anyString cs
    some (.string (String.ofList s), rest)
  else do
    let n ← integer? (cs.takeWhile fun c => !endsValue c)
    some (.integer n, cs.dropWhile fun c => !endsValue c)

/-- Reads the rest of a line: blanks, perhaps a comment, and a line break or the document's end. -/
def lineEnd (cs : List Char) : Option (List Char) :=
  let cs := cs.dropWhile isBlank
  let rest := if cs.head? = some '#' then cs.dropWhile fun c => !isControl c else cs
  if rest.isEmpty then some [] else lineBreak? rest

def entry (cs : List Char) : Option ((String × Value) × List Char) := do
  let (name, cs) ← key cs
  let cs ← match cs.dropWhile isBlank with
    | '=' :: cs => some (cs.dropWhile isBlank)
    | _ => none
  let (v, cs) ← value cs
  some ((String.ofList name, v), cs)

def linesFrom : Nat → Entries Value → List Char → Option (Entries Value)
  | 0, _, _ => none
  | steps + 1, found, cs =>
    let cs := cs.dropWhile isBlank
    match cs with
    | [] => some found
    | c :: _ =>
      match lineEnd cs with
      | some rest => linesFrom steps found rest
      | none =>
        if isControl c then none
        else do
          let ((name, v), cs) ← entry cs
          guard (!Entries.contains name found)
          let rest ← lineEnd cs
          linesFrom steps (Entries.insert name v found) rest

/-- A byte order mark may stand in front. -/
def dropMark : List Char → List Char
  | '\ufeff' :: cs => cs
  | cs => cs

def ofText? (text : String) : Option (Entries Value) :=
  let cs := dropMark text.toList
  linesFrom (cs.length + 1) [] cs

end DocWire.Toml
