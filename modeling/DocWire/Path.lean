import DocWire.Failure

/-!
# Dotted paths

A path names a location in nested objects by its segments, the texts between its dots. `isWithin`
compares paths by their characters; that it compares them segment by segment is
`isWithin_eq_isPrefixOf_segments`. `place` writes a value at a path.
-/
set_option autoImplicit false

namespace DocWire

/-! ## Segments -/

def splitDots : List Char → List (List Char)
  | [] => [[]]
  | c :: rest =>
    if c = '.' then [] :: splitDots rest
    else
      match splitDots rest with
      | [] => [[c]]
      | segment :: others => (c :: segment) :: others

def segments (path : String) : List String := (splitDots path.toList).map String.ofList

/-- Whether characters continue others after a dot, if at all. -/
def withinChars : List Char → List Char → Bool
  | [], [] => true
  | [], c :: _ => c = '.'
  | _ :: _, [] => false
  | b :: base, c :: path => b = c && withinChars base path

/-- Whether a path is another path or lies under it. -/
def isWithin (base path : String) : Bool := withinChars base.toList path.toList

theorem splitDots_ne_nil (cs : List Char) : splitDots cs ≠ [] := by
  cases cs with
  | nil => simp [splitDots]
  | cons c rest =>
    unfold splitDots
    split
    · simp
    · split <;> simp

/-- Comparing characters compares whole segments. -/
theorem withinChars_eq_isPrefixOf (base path : List Char) :
    withinChars base path = (splitDots base).isPrefixOf (splitDots path) := by
  induction base generalizing path with
  | nil =>
    cases path with
    | nil => rfl
    | cons c rest =>
      by_cases hc : c = '.'
      · simp [withinChars, splitDots, hc]
      · unfold withinChars splitDots
        rw [if_neg hc]
        split <;> simp [hc, List.isPrefixOf]
  | cons b base ih =>
    cases path with
    | nil =>
      by_cases hb : b = '.'
      · cases hs : splitDots base with
        | nil => exact absurd hs (splitDots_ne_nil base)
        | cons s ss => simp [withinChars, splitDots, hb, hs, List.isPrefixOf]
      · unfold withinChars splitDots
        rw [if_neg hb]
        split <;> simp [List.isPrefixOf]
    | cons c path =>
      have h := ih path
      cases hs : splitDots base with
      | nil => exact absurd hs (splitDots_ne_nil base)
      | cons s ss =>
        cases ht : splitDots path with
        | nil => exact absurd ht (splitDots_ne_nil path)
        | cons t ts =>
          rw [hs, ht] at h
          by_cases hb : b = '.' <;> by_cases hc : c = '.' <;>
            simp_all [withinChars, splitDots, List.isPrefixOf, eq_comm]
          rw [Bool.and_assoc]
          rfl

theorem isPrefixOf_map_ofList (xs ys : List (List Char)) :
    (xs.map String.ofList).isPrefixOf (ys.map String.ofList) = xs.isPrefixOf ys := by
  induction xs generalizing ys with
  | nil => simp [List.isPrefixOf]
  | cons x xs ih =>
    cases ys with
    | nil => simp [List.isPrefixOf]
    | cons y ys =>
      have h : (String.ofList x == String.ofList y) = (x == y) := by
        rw [Bool.eq_iff_iff, beq_iff_eq, beq_iff_eq]
        exact ⟨fun e => by simpa using congrArg String.toList e, congrArg String.ofList⟩
      simp [List.isPrefixOf, ih ys, h]

/-- A path lies within another when the other's segments are its first segments. -/
theorem isWithin_eq_isPrefixOf_segments (base path : String) :
    isWithin base path = (segments base).isPrefixOf (segments path) := by
  rw [isWithin, withinChars_eq_isPrefixOf, segments, segments, isPrefixOf_map_ofList]

/-! ## Writing at a path -/

namespace Json

/-- Writes a value at the location that segments name, below the given members. Objects on the way
are created where there are none; anything else on the way is in the way. -/
def placeAt (path : String) (value : Json) : List String → Entries Json → Except Failure (Entries Json)
  | [], root => .ok root
  | [name], root => .ok (Entries.insert name value root)
  | name :: next :: rest, root =>
    match Entries.get? name root with
    | none => do .ok (Entries.insert name (.object (← placeAt path value (next :: rest) [])) root)
    | some (.object inner) => do
      .ok (Entries.insert name (.object (← placeAt path value (next :: rest) inner)) root)
    | some _ => .error (.value (.cannotPlace path name))

def place (path : String) (value : Json) (root : Entries Json) : Except Failure (Entries Json) :=
  placeAt path value (segments path) root

end Json

end DocWire
