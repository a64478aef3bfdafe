import DocWire.Text.Hex
import DocWire.Text.Hidden

/-!
# Text in diagnostics

A text that a message is about stands between quotes, with everything escaped that could not be
read: quotes and backslashes, line ends and tabs, and hidden characters by their code.
-/
set_option autoImplicit false

namespace DocWire

/-- The written form of a character inside a diagnostic's quotes. -/
def shownChar (c : Char) : List Char :=
  if c = '\x00' then ['\\', '0']
  else if c = '\t' then ['\\', 't']
  else if c = '\r' then ['\\', 'r']
  else if c = '\n' then ['\\', 'n']
  else if c = '"' ∨ c = '\\' then ['\\', c]
  else if isHidden c then '\\' :: 'u' :: '{' :: (Nat.toDigits 16 c.toNat ++ ['}'])
  else [c]

/-- A text between quotes. -/
def shown (text : String) : String :=
  String.ofList ('"' :: (text.toList.flatMap shownChar ++ ['"']))

example : shown "a\"b\n" = "\"a\\\"b\\n\"" := by decide +kernel
example : shown "\u200b" = "\"\\u\x7b200b\x7d\"" := by decide +kernel

end DocWire
