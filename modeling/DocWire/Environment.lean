import DocWire.Text.Alphanumeric

/-!
# Environment variables

What a process finds in its environment, and texts that refer to it: the name of a variable in braces
after `$ENV` stands for the variable's value.
-/
set_option autoImplicit false

namespace DocWire

abbrev Environment := String → Option String

namespace Environment

def opening : String := "$ENV\x7b"

def isNameChar (c : Char) : Bool := isAlphanumeric c || c = '_' || c = '.'

/-- The name up to a closing brace, at least one character that does not start with a point. -/
def name? (cs : List Char) : Option String :=
  match cs.takeWhile isNameChar, cs.dropWhile isNameChar with
  | first :: others, '}' :: _ => if first = '.' then none else some (String.ofList (first :: others))
  | _, _ => none

def names : List Char → List String
  | [] => []
  | c :: rest =>
    if opening.toList.isPrefixOf (c :: rest) then
      (name? ((c :: rest).drop opening.length)).toList ++ names rest
    else names rest

/-- A text in which the references to variables are replaced by their values, one variable after
another. References to variables that are not set stay. -/
def expand (env : Environment) (text : String) : String :=
  (names text.toList).foldl (fun text name =>
    match env name with
    | some value => text.replace (opening ++ name ++ "\x7d") value
    | none => text) text

end Environment
end DocWire
