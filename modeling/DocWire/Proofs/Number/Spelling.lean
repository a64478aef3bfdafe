import Mathlib.Tactic.Ring
import DocWire.Number.Shortest
import DocWire.Proofs.Json.Grammar
import DocWire.Proofs.Number.Digits

/-!
# Numbers as the grammar spells them

Integers and finite doubles are written as JSON numbers. A double's decimal is laid out around its
point, which gives a JSON number unless the coefficient is zero and the power of ten is not: then
zeros would stand in front. `shortest_coefficient` rules that out. Main statements:
`number_signedDigits` and `number_chars`.
-/
set_option autoImplicit false

namespace DocWire
open Json.Grammar

theorem digits_digits (n : Nat) : Digits (digits n) :=
  ⟨digits_ne_nil n, fun _ hc => isDigit_of_mem_digits hc⟩

theorem whole_digits (n : Nat) : Whole (digits n) := by
  refine ⟨digits_digits n, fun hz => ?_⟩
  by_cases hn : n = 0
  · rw [hn]
    rfl
  · exact absurd hz (head_digits hn)

theorem magnitude_of_whole {cs : List Char} (h : Whole cs) : Magnitude cs := by
  have hm := Magnitude.mk h .none .none
  rwa [List.append_nil, List.append_nil] at hm

/-- An integer is written as a number. -/
theorem number_signedDigits (n : Int) : Number (signedDigits n) := by
  unfold signedDigits
  split
  · exact .minus (magnitude_of_whole (whole_digits _))
  · exact .plus (magnitude_of_whole (whole_digits _))

/-! ## Layout -/

theorem digits_append {cs ds : List Char} (hc : ∀ c ∈ cs, isDigit c = true) (hd : Digits ds) :
    Digits (cs ++ ds) := by
  refine ⟨by simp [hd.1], fun c hm => ?_⟩
  rcases List.mem_append.1 hm with hm | hm
  · exact hc c hm
  · exact hd.2 c hm

theorem isDigit_of_mem_zeros {n : Nat} {c : Char} (h : c ∈ List.replicate n '0') :
    isDigit c = true := by
  rw [List.eq_of_mem_replicate h]
  rfl

/-- The part in front of the point: digits cut off or filled up with zeros. -/
theorem whole_take {n k : Nat} (hk : 0 < k) (hn : n ≠ 0 ∨ k = 1) :
    Whole ((digits n).take k ++ List.replicate (k - ((digits n).take k).length) '0') := by
  obtain ⟨c, tail, hct⟩ := List.exists_cons_of_ne_nil (digits_ne_nil n)
  obtain ⟨k, rfl⟩ : ∃ j, k = j + 1 := ⟨k - 1, by omega⟩
  have hmem : ∀ d ∈ c :: tail, isDigit d = true := fun d hd => isDigit_of_mem_digits (hct ▸ hd)
  rw [hct, List.take_succ_cons]
  refine ⟨⟨by simp, fun d hd => ?_⟩, fun hz => ?_⟩
  · rcases List.mem_append.1 hd with hd | hd
    · rcases List.mem_cons.1 hd with rfl | hd
      · exact hmem d (List.mem_cons_self ..)
      · exact hmem d (List.mem_cons_of_mem c (List.mem_of_mem_take hd))
    · exact isDigit_of_mem_zeros hd
  · have hc : c = '0' := by simpa using hz
    by_cases hn0 : n = 0
    · obtain rfl : k = 0 := by omega
      simp [hc]
    · exact absurd (by rw [hct, hc]; rfl) (head_digits hn0)

theorem magnitude_positional {n : Nat} {order : Int} (hn : n ≠ 0 ∨ order ≤ 1) :
    Magnitude (Decimal.positional (digits n) order) := by
  unfold Decimal.positional
  split
  · have hz : ∀ c ∈ List.replicate (-order).toNat '0', isDigit c = true :=
      fun c hc => isDigit_of_mem_zeros hc
    have hp := Point.some (digits_append hz (digits_digits n))
    have hm := Magnitude.mk (whole_digits 0) hp .none
    rwa [List.append_nil] at hm
  · have hw := whole_take (n := n) (k := order.toNat) (by omega) (by omega)
    have hpart : Digits (if ((digits n).drop order.toNat).isEmpty then ['0']
        else (digits n).drop order.toNat) := by
      split
      · exact digits_digits 0
      · rename_i hne
        refine ⟨by simpa using hne, fun c hc => ?_⟩
        exact isDigit_of_mem_digits (List.mem_of_mem_drop hc)
    have hm := Magnitude.mk hw (.some hpart) .none
    rwa [List.append_nil] at hm

theorem magnitude_scientific (n : Nat) (order : Int) :
    Magnitude (Decimal.scientific (digits n) order) := by
  obtain ⟨c, tail, hct⟩ := List.exists_cons_of_ne_nil (digits_ne_nil n)
  have hmem : ∀ d ∈ c :: tail, isDigit d = true := fun d hd => isDigit_of_mem_digits (hct ▸ hd)
  have hw : Whole [c] := by
    refine ⟨⟨by simp, fun d hd => ?_⟩, fun hz => by simpa using hz⟩
    rw [List.mem_singleton] at hd
    exact hd ▸ hmem c (List.mem_cons_self ..)
  have hp : Point (if (c :: tail).length ≤ 1 then [] else '.' :: tail) := by
    split
    · exact .none
    · rename_i hlen
      refine .some ⟨?_, fun d hd => hmem d (List.mem_cons_of_mem c hd)⟩
      rintro rfl
      simp at hlen
  have hs : ([if order - 1 < 0 then '-' else '+'] : List Char) = ['+'] ∨
      ([if order - 1 < 0 then '-' else '+'] : List Char) = ['-'] := by
    split <;> simp
  have he : Power ('e' :: ([if order - 1 < 0 then '-' else '+'] ++ digits (order - 1).natAbs)) :=
    .some (.inl rfl) (.inr hs) (digits_digits _)
  have hm := Magnitude.mk hw hp he
  rw [hct]
  simpa [Decimal.scientific, List.append_assoc] using hm

/-- A decimal whose coefficient is not zero, or that has no power of ten, is laid out as a number. -/
theorem magnitude_layout {n : Nat} {power : Int} (h : n ≠ 0 ∨ power ≤ 0) :
    Magnitude (Decimal.layout n power) := by
  unfold Decimal.layout
  simp only
  split
  · refine magnitude_positional ?_
    by_cases hn : n = 0
    · subst hn
      have hlen : (digits 0).length = 1 := rfl
      omega
    · exact .inl hn
  · exact magnitude_scientific n _

/-! ## Doubles -/

namespace Binary64

theorem tenPow_pos (n : Nat) : 0 < tenPow n := Nat.pow_pos (by decide)

theorem mantissa_pos {x : Binary64} (hz : x.isZero = false) : 0 < x.mantissa := by
  have hx : x.magnitude ≠ 0 := by simpa [isZero] using hz
  unfold mantissa BinaryLayout.mantissa
  simp only [BinaryLayout.double, Nat.shiftRight_eq_div_pow, Nat.one_shiftLeft]
  split
  · omega
  · omega

theorem mantissa_lt (x : Binary64) : x.mantissa < 2 ^ 53 := by
  unfold mantissa BinaryLayout.mantissa
  simp only [BinaryLayout.double, Nat.shiftRight_eq_div_pow, Nat.one_shiftLeft]
  split <;> omega

theorem scale_le {x : Binary64} (hf : x.isFinite = true) : x.scale ≤ 971 := by
  have hx : x.magnitude < 0x7FF0000000000000 := by
    rw [isFinite, decide_eq_true_eq] at hf
    exact hf
  unfold scale BinaryLayout.scale
  simp only [BinaryLayout.double, Nat.shiftRight_eq_div_pow]
  split <;> omega

/-- Zero does not read back as a double other than zero. -/
theorem readsBack_zero {x : Binary64} (hz : x.isZero = false) (power : Int) :
    x.readsBack 0 power = false := by
  have hm := mantissa_pos hz
  have hlow : 0 < x.lowerBound.num := by
    unfold lowerBound Fraction.scaled
    refine Nat.mul_pos ?_ (Nat.pow_pos (by decide))
    split <;> omega
  have hden : 0 < (Fraction.scaled 0 10 power).den := Nat.pow_pos (by decide)
  have hprod : 0 < x.lowerBound.num * (Fraction.scaled 0 10 power).den := Nat.mul_pos hlow hden
  have hnum : (Fraction.scaled 0 10 power).num = 0 := Nat.zero_mul _
  unfold readsBack Fraction.le Fraction.lt
  simp only [hnum, Nat.zero_mul]
  split
  · simp [Nat.not_le.2 hprod]
  · simp

theorem bestAt_ne_zero {tie : Tie} {x : Binary64} {power : Int} {n : Nat} (hz : x.isZero = false)
    (h : x.bestAt tie power = some n) : n ≠ 0 := by
  have hlow : x.readsBack (x.floorAt power) power = true → x.floorAt power ≠ 0 := by
    intro hr h0
    rw [h0, readsBack_zero hz] at hr
    cases hr
  unfold bestAt at h
  simp only at h
  split at h
  · cases h
  · rename_i hr _
    cases h
    exact hlow hr
  · cases h
    omega
  · rename_i hr _
    have h0 := hlow hr
    split at h
    · cases h
      exact h0
    · split at h
      · cases h
        omega
      · cases h
        unfold Tie.choose
        cases tie with
        | even => simp only; split <;> omega
        | up => simp only; omega

/-- A thousand is less than two to the tenth. -/
theorem tenPow_le (n : Nat) : tenPow n ≤ 2 ^ (10 * (n / 3 + 1)) := by
  calc tenPow n = 10 ^ n := rfl
    _ ≤ 10 ^ (3 * (n / 3 + 1)) := Nat.pow_le_pow_right (by decide) (by omega)
    _ = (10 ^ 3) ^ (n / 3 + 1) := Nat.pow_mul ..
    _ ≤ (2 ^ 10) ^ (n / 3 + 1) := Nat.pow_le_pow_left (by decide) _
    _ = 2 ^ (10 * (n / 3 + 1)) := (Nat.pow_mul ..).symm

/-- Where the search ends on a positive power of ten, the value is no less than this power. -/
theorem floorAt_ne_zero {x : Binary64} (hz : x.isZero = false) (hf : x.isFinite = true)
    (hp : 0 < x.searchStart - 30) : x.floorAt (x.searchStart - 30) ≠ 0 := by
  have hm : 2 ^ x.mantissa.log2 ≤ x.mantissa := Nat.log2_self_le (mantissa_pos hz).ne'
  have hlog : x.mantissa.log2 < 53 := (Nat.log2_lt (mantissa_pos hz).ne').2 x.mantissa_lt
  have hs := scale_le hf
  have hstart : x.searchStart - 30 = ((x.mantissa.log2 : Int) + x.scale + 1) * 30103 / 100000 - 27 := by
    unfold searchStart
    omega
  generalize x.searchStart - 30 = p at hp hstart
  -- The powers of two that the numerator holds and the denominator lacks.
  have hexp : 10 * (p.toNat / 3 + 1) + (-x.scale).toNat ≤ x.mantissa.log2 + x.scale.toNat := by
    omega
  have hden : x.value.den * tenPow p.toNat ≤ x.value.num := by
    calc x.value.den * tenPow p.toNat
        ≤ 2 ^ (-x.scale).toNat * 2 ^ (10 * (p.toNat / 3 + 1)) :=
          Nat.mul_le_mul (Nat.le_refl _) (tenPow_le _)
      _ = 2 ^ (10 * (p.toNat / 3 + 1) + (-x.scale).toNat) := by
          rw [Nat.pow_add, Nat.mul_comm]
      _ ≤ 2 ^ (x.mantissa.log2 + x.scale.toNat) := Nat.pow_le_pow_right (by decide) hexp
      _ = 2 ^ x.mantissa.log2 * 2 ^ x.scale.toNat := Nat.pow_add ..
      _ ≤ x.value.num := Nat.mul_le_mul hm (Nat.le_refl _)
  have hpos : 0 < x.value.den * tenPow p.toNat :=
    Nat.mul_pos (Nat.pow_pos (by decide)) (tenPow_pos _)
  have hneg : (-p).toNat = 0 := by omega
  have hone : tenPow 0 = 1 := rfl
  unfold floorAt
  simp only [hneg, hone, Nat.mul_one]
  exact (Nat.div_pos hden hpos).ne'

theorem shortestFrom_coefficient {tie : Tie} {x : Binary64} (hz : x.isZero = false) (steps : Nat)
    (power : Int) (hend : 0 < power - steps → x.floorAt (power - steps) ≠ 0) :
    (x.shortestFrom tie steps power).1 ≠ 0 ∨ (x.shortestFrom tie steps power).2 ≤ 0 := by
  induction steps generalizing power with
  | zero =>
    have hzero : power - ((0 : Nat) : Int) = power := by omega
    rw [hzero] at hend
    unfold shortestFrom
    by_cases hp : 0 < power
    · exact .inl (hend hp)
    · exact .inr (by simpa using hp)
  | succ steps ih =>
    unfold shortestFrom
    split
    · rename_i n hn
      exact .inl (bestAt_ne_zero hz hn)
    · refine ih (power - 1) ?_
      have hshift : power - 1 - (steps : Int) = power - ((steps + 1 : Nat) : Int) := by omega
      rw [hshift]
      exact hend

/-- The shortest decimal has a coefficient other than zero, or no power of ten. -/
theorem shortest_coefficient (tie : Tie) {x : Binary64} (hf : x.isFinite = true) :
    (x.shortest tie).1 ≠ 0 ∨ (x.shortest tie).2 ≤ 0 := by
  unfold shortest
  split
  · exact .inr (Int.le_refl 0)
  · rename_i hz
    have hz : x.isZero = false := by simpa using hz
    exact shortestFrom_coefficient hz 30 x.searchStart (floorAt_ne_zero hz hf)

theorem isNaN_of_isFinite {x : Binary64} (hf : x.isFinite = true) : x.isNaN = false := by
  simp only [isFinite, decide_eq_true_eq] at hf
  simp only [isNaN, decide_eq_false_iff_not]
  omega

/-- A finite double is written as a number. -/
theorem number_chars {x : Binary64} (hf : x.isFinite = true) : Number x.chars := by
  have hm := magnitude_layout (shortest_coefficient .even hf)
  unfold chars
  simp only [isNaN_of_isFinite hf, hf, if_true, Bool.false_eq_true, if_false]
  cases x.negative with
  | true => exact .minus hm
  | false => exact .plus hm

end Binary64
end DocWire
