import DocWire.Text.Hex
import DocWire.Toml.Quoted

/-!
# Writing strings in TOML

A string takes the first of these forms that fits: double quotes without escapes; single quotes;
tripled double quotes without escapes; tripled single quotes; and double quotes with escapes,
tripled when there are line breaks. Between tripled quotes a string that has line breaks starts on
a new line.
-/
set_option autoImplicit false

namespace DocWire.Toml

/-- The length of the longest run of a character, given the run before the text. -/
def longestRun (quote : Char) : Nat → List Char → Nat
  | _, [] => 0
  | before, c :: rest =>
    if c = quote then max (before + 1) (longestRun quote (before + 1) rest)
    else longestRun quote 0 rest

/-- The written form of a character that may have to be escaped. -/
def escapedChar (breaks : Bool) (c : Char) : List Char :=
  if c = '\x08' then ['\\', 'b']
  else if c = '\t' then ['\\', 't']
  else if c = '\n' then (if breaks then ['\n'] else ['\\', 'n'])
  else if c = '\x0c' then ['\\', 'f']
  else if c = '\r' then ['\\', 'r']
  else if c = '\\' then ['\\', '\\']
  else if isControl c then '\\' :: 'u' :: (hexDigits 4 c.toNat).map Char.toUpper
  else [c]

/-- The inside of double quotes. Of quotes in a row, those after `allowed` plain ones are escaped,
and counting starts again. -/
def basicChars (breaks : Bool) (allowed : Nat) : Nat → List Char → List Char
  | _, [] => []
  | run, c :: rest =>
    if c = '"' then
      if run < allowed then '"' :: basicChars breaks allowed (run + 1) rest
      else '\\' :: '"' :: basicChars breaks allowed 0 rest
    else escapedChar breaks c ++ basicChars breaks allowed 0 rest

def tripled (quote : Char) (hasBreaks : Bool) (inside : List Char) : List Char :=
  let quotes := List.replicate 3 quote
  quotes ++ (if hasBreaks then ['\n'] else []) ++ inside ++ quotes

def stringChars (cs : List Char) : List Char :=
  let hasBreaks := cs.contains '\n'
  let hasControls := cs.any fun c => isControl c && c ≠ '\n'
  let hasBackslash := cs.contains '\\'
  let doubles := longestRun '"' 0 cs
  let singles := longestRun '\'' 0 cs
  if !hasControls && !hasBackslash && doubles = 0 && !hasBreaks then
    '"' :: (basicChars false 0 0 cs ++ ['"'])
  else if !hasControls && singles = 0 && !hasBreaks then '\'' :: (cs ++ ['\''])
  else if !hasControls && !hasBackslash && doubles ≤ 2 then
    tripled '"' hasBreaks (basicChars true 2 0 cs)
  else if !hasControls && singles ≤ 2 then tripled '\'' hasBreaks cs
  else if hasBreaks then tripled '"' true (basicChars true 2 0 cs)
  else '"' :: (basicChars false 0 0 cs ++ ['"'])

def stringLine (key value : String) : List Char :=
  key.toList ++ " = ".toList ++ stringChars value.toList ++ ['\n']

def numberLine (key : String) (n : Nat) : List Char :=
  key.toList ++ " = ".toList ++ Nat.toDigits 10 n ++ ['\n']

end DocWire.Toml
