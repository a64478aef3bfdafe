import DocWire.Json.Reader

/-!
# Passing over JSON values

A typed reader has no use for the members that its type does not declare. It passes over their
values without decoding them: containers may nest without limit, escaped codes need not make
characters, and strings may hold stray bytes. A number that stops short is malformed here, even
where the text has ended.
-/
set_option autoImplicit false

namespace DocWire.Json

def skipEscape : List Symbol → Except Fault (List Symbol)
  | [] => .error .ended
  | some 'u' :: cs => do .ok (← codeUnit cs).2
  | some c :: cs => if (letterEscape? c).isSome then .ok cs else .error .malformed
  | none :: _ => .error .malformed

def skipString : Nat → Reader Unit
  | 0, _ => .error .malformed
  | _ + 1, [] => .error .ended
  | _ + 1, some '"' :: cs => .ok ((), cs)
  | steps + 1, some '\\' :: cs => do skipString steps (← skipEscape cs)
  | steps + 1, none :: cs => skipString steps cs
  | steps + 1, some c :: cs => if isControl c then .error .malformed else skipString steps cs

def skipNumber (cs : List Symbol) : Except Fault (Unit × List Symbol) :=
  match numberToken cs with
  | .ok (_, cs) => .ok ((), cs)
  | .error _ => .error .malformed

/-- Passes over a value that is no container; containers are passed over by the two given readers
after their opening sign. -/
def skipWith (steps : Nat) (array object : Reader Unit) (cs : List Symbol) :
    Except Fault (Unit × List Symbol) :=
  match skipSpace cs with
  | [] => .error .ended
  | some 'n' :: cs => word "ull".toList cs
  | some 't' :: cs => word "rue".toList cs
  | some 'f' :: cs => word "alse".toList cs
  | some '"' :: cs => skipString steps cs
  | some '[' :: cs => array cs
  | some '{' :: cs => object cs
  | c :: cs =>
    if c = some '-' ∨ isDigitSymbol c then skipNumber (c :: cs) else .error .malformed

/-- Passes over a value in which at most the given number of containers nest. -/
def skipNested (steps : Nat) : Nat → Reader Unit
  | 0 => skipWith steps (fun _ => .error .malformed) (fun _ => .error .malformed)
  | depth + 1 =>
    skipWith steps
      (fun cs => do .ok ((), (← items (skipNested steps depth) steps cs).2))
      (fun cs => do .ok ((), (← members (skipString steps) (skipNested steps depth) steps cs).2))

/-- Passes over a value. It cannot hold more containers than there are symbols. -/
def skip (cs : List Symbol) : Except Fault (Unit × List Symbol) :=
  skipNested (cs.length + 1) cs.length cs

end DocWire.Json
