import DocWire.Failure
import DocWire.Json.Push

/-!
# Projections

A projection lists the fields that a read returns, or those that it leaves out, never both. On the
wire it is an object that gives every listed name the same truth value; a name that is listed again
is passed over.
-/
set_option autoImplicit false

namespace DocWire

/-- Which fields a read returns. -/
structure Projection where
  included : List String
  excluded : List String
deriving DecidableEq, Inhabited

namespace Projection

/-- Writes the names of a list that have not been seen, with the text of the truth value. -/
def pushNames (flag : String) : List String → List String → String → Except Failure String
  | _, [], out => .ok out
  | seen, name :: rest, out =>
    if name = "" then .error (.filter .emptyProjectionName)
    else if seen.contains name then pushNames flag seen rest out
    else
      let seen := seen ++ [name]
      let out := if 1 < seen.length then out.push ',' else out
      pushNames flag seen rest (pushKey name out ++ flag)

def encodeNames (flag : String) (list : List String) : Except Failure String := do
  let out ← pushNames flag [] list "\x7b"
  .ok (out.push '}')

def encode (p : Projection) : Except Failure String :=
  match p.included.isEmpty, p.excluded.isEmpty with
  | false, true => encodeNames "true" p.included
  | true, false => encodeNames "false" p.excluded
  | false, false => .error (.filter .mixedProjection)
  | true, true => .error (.filter .emptyProjection)

end Projection
end DocWire
