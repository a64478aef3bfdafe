import DocWire.Json.Basic
import DocWire.Json.Quoted

/-!
# Compact JSON text

Members and items are separated by commas alone, and numbers are written as they are kept.
-/
set_option autoImplicit false

namespace DocWire.Json

mutual
def chars : Json → List Char
  | null => "null".toList
  | bool b => if b then "true".toList else "false".toList
  | number text => text.toList
  | string s => quoted s
  | array items => '[' :: itemChars items
  | object members => '{' :: memberChars members

/-- The items after an opening bracket, up to the closing one. -/
def itemChars : List Json → List Char
  | [] => [']']
  | item :: rest => chars item ++ moreItemChars rest

/-- The items after an item. -/
def moreItemChars : List Json → List Char
  | [] => [']']
  | item :: rest => ',' :: (chars item ++ moreItemChars rest)

/-- The members after an opening brace, up to the closing one. -/
def memberChars : List (String × Json) → List Char
  | [] => ['}']
  | (name, value) :: rest => quoted name ++ ':' :: (chars value ++ moreMemberChars rest)

/-- The members after a member. -/
def moreMemberChars : List (String × Json) → List Char
  | [] => ['}']
  | (name, value) :: rest => ',' :: (quoted name ++ ':' :: (chars value ++ moreMemberChars rest))
end

def text (json : Json) : String := String.ofList json.chars

def bytes (json : Json) : ByteArray := json.text.toUTF8

def ofInt (n : Int) : Json := number (toString n)

example : (object [("a", array [null, bool true]), ("b\n", number "1.50")]).text =
    "\x7b\"a\":[null,true],\"b\\n\":1.50\x7d" := by decide +kernel

end DocWire.Json
