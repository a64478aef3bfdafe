import DocWire.Number.WideInteger

/-!
# Decimal digits

The digits of a number read back as the number and have no zero in front. Main statements:
`ofDigits_digits`, `integer?_signedDigits` and `head_digits`.
-/
set_option autoImplicit false

namespace DocWire

theorem isDigit_of_mem_digits {n : Nat} {c : Char} (h : c ∈ digits n) : isDigit c = true := by
  have hd : c.isDigit = true := Nat.isDigit_of_mem_toDigits (by decide) (by decide) h
  simpa [isDigit, Char.isDigit, Char.le_def] using hd

theorem digits_ne_nil (n : Nat) : digits n ≠ [] := Nat.toDigits_ne_nil

theorem head_digits {n : Nat} (hn : n ≠ 0) : (digits n).head? ≠ some '0' := by
  induction n using Nat.strongRecOn with
  | ind n ih =>
    by_cases hs : n < 10
    · rw [digits, Nat.toDigits_of_lt_base hs]
      simpa using hn
    · have hq : n / 10 ≠ 0 := by omega
      have hsplit : digits n = digits (n / 10) ++ [Nat.digitChar (n % 10)] :=
        Nat.toDigits_of_base_le (by decide) (by omega)
      rw [hsplit, List.head?_append]
      cases hd : (digits (n / 10)).head? with
      | none => exact absurd (List.head?_eq_none_iff.1 hd) (digits_ne_nil _)
      | some c =>
        have hc := ih (n / 10) (by omega) hq
        rwa [hd] at hc

theorem ofDigits_digits (n : Nat) : ofDigits (digits n) = n :=
  Nat.ofDigitChars_ten_toDigits

theorem natural?_digits (n : Nat) : natural? (digits n) = some n := by
  have hall : (digits n).all isDigit = true := List.all_eq_true.2 fun c hc => isDigit_of_mem_digits hc
  rw [natural?, if_pos ⟨digits_ne_nil n, hall⟩, ofDigits_digits]

theorem head_digits_ne_minus (n : Nat) : (digits n).head? ≠ some '-' := by
  intro h
  exact absurd (isDigit_of_mem_digits (List.mem_of_mem_head? h)) (by decide)

theorem integer?_digits (n : Nat) : integer? (digits n) = some (n : Int) := by
  unfold integer?
  split
  · rename_i heq
    exact absurd (by rw [heq]; rfl) (head_digits_ne_minus n)
  · rw [natural?_digits]
    rfl

/-- The digits of an integer read back as this integer. -/
theorem integer?_signedDigits (n : Int) : integer? (signedDigits n) = some n := by
  unfold signedDigits
  split
  · have hm : integer? ('-' :: digits n.natAbs) = some (-(n.natAbs : Int)) := by
      rw [integer?, natural?_digits]
      rfl
    rw [hm, Option.some.injEq]
    omega
  · rw [integer?_digits, Option.some.injEq]
    omega

theorem toString_eq_signedDigits (n : Int) : toString n = String.ofList (signedDigits n) := by
  cases n with
  | ofNat n =>
    have hn : ¬ Int.ofNat n < 0 := Int.not_lt.2 (Int.natCast_nonneg n)
    rw [signedDigits, if_neg hn]
    exact Nat.repr_eq_ofList_toDigits
  | negSucc n =>
    rw [signedDigits, if_pos (Int.negSucc_lt_zero n)]
    change "-" ++ Nat.repr (n + 1) = _
    rw [Nat.repr_eq_ofList_toDigits]
    have h : String.ofList (['-'] ++ digits (n + 1)) = "-" ++ String.ofList (digits (n + 1)) :=
      String.ofList_append
    exact h.symm

end DocWire
