/-!
# Ranges of characters

Sets of characters are written as lists of ranges of code points. A list is in order when its ranges
ascend and at least one code point lies between each and the next.
-/
set_option autoImplicit false

namespace DocWire

/-- The first and last code points of each range. -/
abbrev CodeRanges := List (Nat × Nat)

namespace CodeRanges

def covers (ranges : CodeRanges) (c : Char) : Bool :=
  ranges.any fun r => r.1 ≤ c.toNat && c.toNat ≤ r.2

def isOrdered : CodeRanges → Bool
  | [] => true
  | [r] => r.1 ≤ r.2
  | r :: s :: rest => r.1 ≤ r.2 && r.2 + 1 < s.1 && isOrdered (s :: rest)

def count (ranges : CodeRanges) : Nat := ranges.foldl (fun n r => n + (r.2 + 1 - r.1)) 0

theorem covers_append (a b : CodeRanges) (c : Char) :
    covers (a ++ b) c = (covers a c || covers b c) := List.any_append ..

end CodeRanges
end DocWire
