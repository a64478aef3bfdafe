/-!
# Lines of a text
-/
set_option autoImplicit false

namespace DocWire

def dropReturn (line : List Char) : List Char :=
  match line.getLast? with
  | some '\r' => line.dropLast
  | _ => line

/-- The lines of a text whose last line may lack its line feed. -/
def linesFrom (line : List Char) : List Char → List String
  | [] => if line.isEmpty then [] else [String.ofList line.reverse]
  | '\n' :: rest => String.ofList (dropReturn line.reverse) :: linesFrom [] rest
  | c :: rest => linesFrom (c :: line) rest

/-- The lines of a text. A line ends with a line feed, and a carriage return before it belongs to
the line's end; nothing follows the last line feed. -/
def lines (text : String) : List String := linesFrom [] text.toList

example : lines "a\n\nb" = ["a", "", "b"] := by decide +kernel
example : lines "a\n" = ["a"] := by decide +kernel

end DocWire
