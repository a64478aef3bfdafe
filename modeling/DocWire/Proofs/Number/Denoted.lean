import Mathlib.Tactic.Ring
import DocWire.Proofs.Json.Grammar
import DocWire.Proofs.Number.Digits

/-!
# The integer that a text denotes

A text of digits, perhaps after a minus sign, denotes the integer in which every digit counts by its
place, however many zeros stand in front. Main statement: `integer?_eq_some_iff`, integers are read as
what they denote.
-/
set_option autoImplicit false

namespace DocWire

open Json.Grammar (Digits)

/-- What digits count for: each one as often as there are numbers of the digits behind it. -/
def placeValue : List Char → Nat
  | [] => 0
  | c :: cs => digitValue c * 10 ^ cs.length + placeValue cs

/-- A text denotes an integer. -/
inductive DenotesInteger : List Char → Int → Prop
  | plus {ds : List Char} (h : Digits ds) : DenotesInteger ds (placeValue ds)
  | minus {ds : List Char} (h : Digits ds) : DenotesInteger ('-' :: ds) (-placeValue ds)

/-- A text spells an integer: digits, perhaps after a minus sign. -/
def SpellsInteger (text : String) : Prop :=
  ∃ ds, Digits ds ∧ (text.toList = ds ∨ text.toList = '-' :: ds)

theorem ofDigits_eq_placeValue (cs : List Char) : ofDigits cs = placeValue cs := by
  suffices h : ∀ n, cs.foldl (fun n c => 10 * n + digitValue c) n =
      n * 10 ^ cs.length + placeValue cs by
    rw [ofDigits, h, Nat.zero_mul, Nat.zero_add]
  induction cs with
  | nil => simp [placeValue]
  | cons c cs ih =>
    intro n
    rw [List.foldl_cons, ih, placeValue, List.length_cons]
    ring

theorem natural?_eq_some_iff {cs : List Char} {n : Nat} :
    natural? cs = some n ↔ Digits cs ∧ ofDigits cs = n := by
  unfold natural? Digits
  rw [← List.all_eq_true]
  split
  · rename_i h
    rw [Option.some.injEq, and_iff_right h]
  · rename_i h
    exact iff_of_false (Option.some_ne_none n).symm fun hc => h hc.1

theorem natural?_of_digits {ds : List Char} (h : Digits ds) : natural? ds = some (placeValue ds) :=
  natural?_eq_some_iff.2 ⟨h, ofDigits_eq_placeValue ds⟩

theorem integer?_of_digits {ds : List Char} (h : Digits ds) :
    integer? ds = some (placeValue ds : Int) := by
  unfold integer?
  split
  · -- Digits do not start with a minus sign.
    exact absurd (h.2 '-' (List.mem_cons_self ..)) (by decide)
  · rw [natural?_of_digits h]
    rfl

theorem integer?_of_minus {ds : List Char} (h : Digits ds) :
    integer? ('-' :: ds) = some (-(placeValue ds : Int)) := by
  rw [integer?, natural?_of_digits h]
  rfl

/-- Integers are read as what they denote. -/
theorem integer?_eq_some_iff {cs : List Char} {n : Int} :
    integer? cs = some n ↔ DenotesInteger cs n := by
  constructor
  · intro h
    unfold integer? at h
    split at h
    · rename_i ds
      cases hm : natural? ds with
      | none =>
        rw [hm] at h
        cases h
      | some m =>
        obtain ⟨hd, rfl⟩ := natural?_eq_some_iff.1 hm
        rw [hm] at h
        cases h
        rw [ofDigits_eq_placeValue]
        exact .minus hd
    · cases hm : natural? cs with
      | none =>
        rw [hm] at h
        cases h
      | some m =>
        obtain ⟨hd, rfl⟩ := natural?_eq_some_iff.1 hm
        rw [hm] at h
        cases h
        rw [ofDigits_eq_placeValue]
        exact .plus hd
  · intro h
    cases h with
    | plus hd => exact integer?_of_digits hd
    | minus hd => exact integer?_of_minus hd

theorem DenotesInteger.unique {cs : List Char} {n m : Int} (h : DenotesInteger cs n)
    (h' : DenotesInteger cs m) : n = m :=
  Option.some.inj ((integer?_eq_some_iff.2 h).symm.trans (integer?_eq_some_iff.2 h'))

theorem DenotesInteger.iff_eq {cs : List Char} {n : Int} (h : DenotesInteger cs n) (m : Int) :
    DenotesInteger cs m ↔ m = n := by
  constructor
  · exact fun hm => hm.unique h
  · rintro rfl
    exact h

theorem exists_integer?_iff (text : String) :
    (∃ n, integer? text.toList = some n) ↔ SpellsInteger text := by
  simp only [integer?_eq_some_iff]
  constructor
  · rintro ⟨n, h⟩
    generalize htext : text.toList = cs at h
    cases h with
    | plus hd => exact ⟨_, hd, .inl htext⟩
    | minus hd => exact ⟨_, hd, .inr htext⟩
  · rintro ⟨ds, hd, hs⟩
    rcases hs with hs | hs
    · exact ⟨placeValue ds, by rw [hs]; exact .plus hd⟩
    · exact ⟨-placeValue ds, by rw [hs]; exact .minus hd⟩

theorem integer?_eq_none_iff (text : String) :
    integer? text.toList = none ↔ ¬ SpellsInteger text := by
  rw [← exists_integer?_iff, Option.eq_none_iff_forall_ne_some, not_exists]

end DocWire
