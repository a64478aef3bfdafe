import Mathlib.Algebra.Order.Floor.Semifield
import Mathlib.Data.Rat.Floor
import DocWire.Proofs.Json.Reading
import DocWire.Proofs.Number.Rounding

/-!
# Doubles read back

The search for the shortest decimal ends on a decimal that rounds to the double, its text is read as
this decimal's value, and the nearest double of that value is the one that was written. Main
statement: `ofText?_text`.
-/
set_option autoImplicit false

namespace DocWire

namespace Binary64

/-! ## The search -/

/-- Two to the tenth part of 33 is less than ten. -/
theorem two_pow_le_tenPow (k : Nat) : 2 ^ (33 * (k / 10) + 3 * (k % 10)) ≤ tenPow k := by
  calc 2 ^ (33 * (k / 10) + 3 * (k % 10))
      = (2 ^ 33) ^ (k / 10) * (2 ^ 3) ^ (k % 10) := by rw [Nat.pow_add, Nat.pow_mul, Nat.pow_mul]
    _ ≤ (10 ^ 10) ^ (k / 10) * 10 ^ (k % 10) :=
        Nat.mul_le_mul (Nat.pow_le_pow_left (by decide) _) (Nat.pow_le_pow_left (by decide) _)
    _ = 10 ^ (10 * (k / 10) + k % 10) := by rw [Nat.pow_add, Nat.pow_mul]
    _ = tenPow k := by rw [Nat.div_add_mod]; rfl

/-- The search ends on powers of ten that are finer than the distance to the bounds. -/
theorem zpow_searchEnd_le {x : Binary64} (hf : x.isFinite = true) (hz : x.isZero = false) :
    (10 : ℚ) ^ (x.searchStart - 30) ≤ 2 ^ (x.scale - 2) := by
  have hlog : x.mantissa.log2 < 53 := (Nat.log2_lt (mantissa_pos hz).ne').2 x.mantissa_lt
  have hs := scale_le hf
  have hmin := minScale_le_scale x
  have hend : x.searchStart - 30 = ((x.mantissa.log2 : Int) + x.scale + 1) * 30103 / 100000 - 27 := by
    unfold searchStart
    omega
  rw [hend]
  generalize hp : ((x.mantissa.log2 : Int) + x.scale + 1) * 30103 / 100000 - 27 = p
  obtain ⟨k, rfl | rfl⟩ := p.eq_nat_or_neg
  · have hpow : ((tenPow k : Nat) : ℚ) ≤ ((2 ^ (10 * (k / 3 + 1)) : Nat) : ℚ) :=
      Nat.cast_le.2 (tenPow_le k)
    have hexp : ((10 * (k / 3 + 1) : Nat) : Int) ≤ x.scale - 2 := by omega
    calc (10 : ℚ) ^ (k : Int) = ((tenPow k : Nat) : ℚ) := by simp [tenPow]
      _ ≤ ((2 ^ (10 * (k / 3 + 1)) : Nat) : ℚ) := hpow
      _ = 2 ^ ((10 * (k / 3 + 1) : Nat) : Int) := by rw [zpow_natCast, Nat.cast_pow, Nat.cast_ofNat]
      _ ≤ 2 ^ (x.scale - 2) := zpow_le_zpow_right₀ one_le_two hexp
  · have hpow : ((2 ^ (33 * (k / 10) + 3 * (k % 10)) : Nat) : ℚ) ≤ ((tenPow k : Nat) : ℚ) :=
      Nat.cast_le.2 (two_pow_le_tenPow k)
    have hexp : -((33 * (k / 10) + 3 * (k % 10) : Nat) : Int) ≤ x.scale - 2 := by omega
    calc (10 : ℚ) ^ (-(k : Int)) = ((tenPow k : Nat) : ℚ)⁻¹ := by simp [tenPow]
      _ ≤ ((2 ^ (33 * (k / 10) + 3 * (k % 10)) : Nat) : ℚ)⁻¹ := inv_anti₀ (by positivity) hpow
      _ = 2 ^ (-((33 * (k / 10) + 3 * (k % 10) : Nat) : Int)) := by
        rw [zpow_neg, zpow_natCast, Nat.cast_pow, Nat.cast_ofNat]
      _ ≤ 2 ^ (x.scale - 2) := zpow_le_zpow_right₀ one_le_two hexp

theorem floorAt_eq (x : Binary64) (power : Int) :
    x.floorAt power = ⌊x.value.toRat / (10 : ℚ) ^ power⌋₊ := by
  have hq : ((x.value.num * tenPow (-power).toNat : Nat) : ℚ) /
      ((x.value.den * tenPow power.toNat : Nat) : ℚ) = x.value.toRat / (10 : ℚ) ^ power := by
    rw [Fraction.toRat]
    obtain ⟨k, rfl | rfl⟩ := power.eq_nat_or_neg
    · simp [tenPow, div_div]
    · simp [tenPow, div_mul_eq_mul_div]
  unfold floorAt
  simp only
  rw [← hq, Nat.floor_div_eq_div]

theorem value_nonneg (x : Binary64) : 0 ≤ x.value.toRat :=
  div_nonneg (Nat.cast_nonneg _) (Nat.cast_nonneg _)

/-- What `floorAt` gives lies at or below the value, by less than the power of ten. -/
theorem floorAt_bounds (x : Binary64) (power : Int) :
    (x.floorAt power : ℚ) * 10 ^ power ≤ x.value.toRat ∧
      x.value.toRat < (x.floorAt power : ℚ) * 10 ^ power + 10 ^ power := by
  have hp : (0 : ℚ) < 10 ^ power := zpow_pos (by norm_num) power
  have hl := Nat.floor_le (div_nonneg x.value_nonneg hp.le)
  have hh := Nat.lt_floor_add_one (x.value.toRat / (10 : ℚ) ^ power)
  rw [← floorAt_eq, le_div_iff₀ hp] at hl
  rw [← floorAt_eq, div_lt_iff₀ hp, add_mul, one_mul] at hh
  exact ⟨hl, hh⟩

/-- A multiple of a fine enough power of ten, just below the value, rounds to it. -/
theorem readsBack_floorAt {x : Binary64} (hz : x.isZero = false) {power : Int}
    (hp : (10 : ℚ) ^ power ≤ 2 ^ (x.scale - 2)) : x.readsBack (x.floorAt power) power = true := by
  have hunit := two_zpow_pos x.scale
  obtain ⟨hl, hh⟩ := x.floorAt_bounds power
  rw [zpow_sub₀ two_ne_zero] at hp
  rw [toRat_value] at hl hh
  have hlow : x.lowerBound.toRat < (x.floorAt power : ℚ) * 10 ^ power := by
    rw [toRat_lowerBound hz]
    split <;> linarith
  have hhigh : (x.floorAt power : ℚ) * 10 ^ power < x.upperBound.toRat := by
    rw [toRat_upperBound]
    linarith
  rw [readsBack_iff, Rounds]
  split
  · exact ⟨hlow.le, hhigh.le⟩
  · exact ⟨hlow, hhigh⟩

theorem readsBack_of_bestAt {tie : Tie} {x : Binary64} {power : Int} {n : Nat}
    (h : x.bestAt tie power = some n) : x.readsBack n power = true := by
  unfold bestAt at h
  simp only at h
  split at h
  · cases h
  · rename_i hl _
    cases h
    exact hl
  · rename_i _ hh
    cases h
    exact hh
  · rename_i hl hh
    have hchoice : n = x.floorAt power ∨ n = x.floorAt power + 1 := by
      split at h
      · cases h
        exact .inl rfl
      · split at h
        · cases h
          exact .inr rfl
        · cases h
          cases tie with
          | up => exact .inr rfl
          | even => exact ite_eq_or_eq _ _ _
    rcases hchoice with rfl | rfl
    · exact hl
    · exact hh

theorem readsBack_shortestFrom (tie : Tie) {x : Binary64} (steps : Nat) (power : Int)
    (hend : x.readsBack (x.floorAt (power - steps)) (power - steps) = true) :
    x.readsBack (x.shortestFrom tie steps power).1 (x.shortestFrom tie steps power).2 = true := by
  induction steps generalizing power with
  | zero =>
    rw [Int.natCast_zero, Int.sub_zero] at hend
    exact hend
  | succ steps ih =>
    unfold shortestFrom
    split
    · rename_i n hn
      exact readsBack_of_bestAt hn
    · have hshift : power - ((steps + 1 : Nat) : Int) = power - 1 - (steps : Int) := by omega
      rw [hshift] at hend
      exact ih (power - 1) hend

/-- The shortest decimal rounds to the double. -/
theorem rounds_shortest (tie : Tie) {x : Binary64} (hf : x.isFinite = true)
    (hz : x.isZero = false) : x.Rounds ((x.shortest tie).1 * (10 : ℚ) ^ (x.shortest tie).2) := by
  have hend := readsBack_floorAt hz (zpow_searchEnd_le hf hz)
  have h := readsBack_shortestFrom tie 30 x.searchStart hend
  rw [← readsBack_iff, shortest, hz]
  exact h

end Binary64

/-! ## The text -/

theorem ofDigits_append_zeros (ds : List Char) (k : Nat) :
    ofDigits (ds ++ List.replicate k '0') = 10 ^ k * ofDigits ds :=
  (Nat.ofDigitChars_append 0).trans Nat.ofDigitChars_replicate_zero

theorem ofDigits_zeros_append (ds : List Char) (k : Nat) :
    ofDigits (List.replicate k '0' ++ ds) = ofDigits ds := by
  have hz : Nat.ofDigitChars 10 (List.replicate k '0') 0 = 0 :=
    Nat.ofDigitChars_replicate_zero.trans (Nat.mul_zero _)
  have h : ofDigits (List.replicate k '0' ++ ds) =
      Nat.ofDigitChars 10 ds (Nat.ofDigitChars 10 (List.replicate k '0') 0) :=
    Nat.ofDigitChars_append 0
  rw [h, hz]
  rfl

namespace Decimal
open Json.Grammar

/-- The value of a decimal, without sign. -/
def toRat (d : Decimal) : ℚ := d.coefficient * 10 ^ d.exponent

theorem power?_sign (power : Int) :
    power? ((if power < 0 then '-' else '+') :: digits power.natAbs) = some power := by
  split
  · have h : power? ('-' :: digits power.natAbs) = some (-(power.natAbs : Int)) := by
      rw [power?, integer?, natural?_digits]
      · rfl
      · intro cs hc
        cases hc
    rw [h, Option.some.injEq]
    omega
  · have h : power? ('+' :: digits power.natAbs) = some (power.natAbs : Int) := by
      rw [power?, natural?_digits]
      rfl
    rw [h, Option.some.injEq]
    omega

/-- What may follow the digits of a decimal: nothing, or a power of ten. -/
def Follows (tail : List Char) (power : Int) : Prop :=
  (tail = [] ∧ power = 0) ∨ ∃ rest, tail = 'e' :: rest ∧ power? rest = some power

theorem unsigned?_eq (negative : Bool) {whole point tail : List Char} {power : Int}
    (hw : Digits whole) (hp : Point point) (ht : Follows tail power) :
    unsigned? negative (whole ++ (point ++ tail)) =
      some ⟨negative, ofDigits (whole ++ point.tail), power - point.tail.length⟩ := by
  have hend : DigitsEnd tail := by
    rcases ht with ⟨rfl, -⟩ | ⟨rest, rfl, -⟩
    · intro c hc
      cases hc
    · exact digitsEnd_cons _ rfl
  have hmiddle : DigitsEnd (point ++ tail) := by
    cases hp with
    | none => exact hend
    | some hd => exact digitsEnd_cons _ rfl
  have htake := takeWhile_digits hw.2 hmiddle
  have hdrop := dropWhile_digits hw.2 hmiddle
  unfold unsigned?
  rw [htake, hdrop]
  cases hp with
  | none =>
    rcases ht with ⟨rfl, rfl⟩ | ⟨rest, rfl, hr⟩
    · simp [hw.1]
    · simp [hw.1, hr]
  | @some ds hd =>
    have htake := takeWhile_digits hd.2 hend
    have hdrop := dropWhile_digits hd.2 hend
    rcases ht with ⟨rfl, rfl⟩ | ⟨rest, rfl, hr⟩
    · rw [List.append_nil] at htake hdrop
      simp [hw.1, htake, hdrop]
    · simp [hw.1, htake, hdrop, hr]

/-- A text without sign is read as a decimal of a value. -/
def ReadsAs (cs : List Char) (value : ℚ) : Prop :=
  ∀ negative, ∃ d, unsigned? negative cs = some d ∧ d.negative = negative ∧ d.toRat = value

theorem readsAs_digits {whole point tail : List Char} {shift : Int} (power : Int) {m : Nat}
    (hw : Digits whole) (hp : Point point) (ht : Follows tail shift)
    (hm : ofDigits (whole ++ point.tail) = m) (he : shift - point.tail.length = power) :
    ReadsAs (whole ++ (point ++ tail)) (m * 10 ^ power) := by
  intro negative
  refine ⟨_, unsigned?_eq negative hw hp ht, rfl, ?_⟩
  rw [toRat, hm, he]

section
variable {ds : List Char} {n : Nat} (hds : Digits ds) (hn : ofDigits ds = n) (power : Int)
include hds hn

theorem readsAs_positional : ReadsAs (positional ds (ds.length + power)) (n * 10 ^ power) := by
  unfold positional
  split
  · -- The point stands in front of all digits, with zeros between.
    rename_i horder
    generalize hk : (-((ds.length : Int) + power)).toNat = k
    have hpoint : Point ('.' :: (List.replicate k '0' ++ ds)) :=
      .some (digits_append (fun c hc => isDigit_of_mem_zeros hc) hds)
    have hread := readsAs_digits power (whole_digits 0).1 hpoint (.inl ⟨rfl, rfl⟩)
      ((ofDigits_zeros_append ds (k + 1)).trans hn)
      (by rw [List.tail_cons, List.length_append, List.length_replicate]; omega)
    rwa [List.append_nil] at hread
  · rename_i horder
    simp only
    generalize hk : ((ds.length : Int) + power).toNat = k
    by_cases hlen : ds.length ≤ k
    · -- It stands behind all of them, and behind zeros.
      have hwhole : Digits (ds ++ List.replicate (k - ds.length) '0') := by
        refine ⟨by simp [hds.1], fun c hc => ?_⟩
        rcases List.mem_append.1 hc with hc | hc
        · exact hds.2 c hc
        · exact isDigit_of_mem_zeros hc
      have hm : ofDigits (ds ++ List.replicate (k - ds.length) '0' ++ digits 0) =
          10 ^ (k - ds.length + 1) * n := by
        have hzeros : List.replicate (k - ds.length) '0' ++ digits 0 =
            List.replicate (k - ds.length + 1) '0' := List.replicate_succ'.symm
        rw [List.append_assoc, hzeros, ofDigits_append_zeros, hn]
      have hread := readsAs_digits (-1) hwhole (.some (digits_digits 0)) (.inl ⟨rfl, rfl⟩)
        hm rfl
      have hvalue : ((10 ^ (k - ds.length + 1) * n : Nat) : ℚ) * 10 ^ (-1 : Int) = n * 10 ^ power := by
        have hpower : power = ((k - ds.length : Nat) : Int) := by omega
        rw [hpower, zpow_natCast, Nat.cast_mul, Nat.cast_pow, pow_succ]
        simp
        ring
      rw [hvalue, List.append_nil] at hread
      rw [List.take_of_length_le hlen, List.drop_of_length_le hlen]
      exact hread
    · -- It stands among them.
      have hwhole : Digits (ds.take k) := by
        refine ⟨fun he => ?_, fun c hc => hds.2 c (List.mem_of_mem_take hc)⟩
        have hlength := congrArg List.length he
        rw [List.length_take, List.length_nil] at hlength
        omega
      have hpart : Digits (ds.drop k) := by
        refine ⟨fun he => ?_, fun c hc => hds.2 c (List.mem_of_mem_drop hc)⟩
        have hlength := congrArg List.length he
        rw [List.length_drop, List.length_nil] at hlength
        omega
      have hread := readsAs_digits power hwhole (.some hpart) (.inl ⟨rfl, rfl⟩)
        (by rw [List.tail_cons, List.take_append_drop, hn])
        (by rw [List.tail_cons, List.length_drop]; omega)
      have hzeros : k - (ds.take k).length = 0 := by
        rw [List.length_take]
        omega
      rw [List.append_nil] at hread
      rw [hzeros, List.replicate_zero, List.append_nil,
        if_neg (by rw [List.isEmpty_iff]; exact hpart.1)]
      exact hread

theorem readsAs_scientific : ReadsAs (scientific ds (ds.length + power)) (n * 10 ^ power) := by
  have hfollows : Follows ('e' :: (if (ds.length : Int) + power - 1 < 0 then '-' else '+') ::
      digits ((ds.length : Int) + power - 1).natAbs) (ds.length + power - 1) :=
    .inr ⟨_, rfl, power?_sign _⟩
  obtain ⟨c, rest, rfl⟩ := List.exists_cons_of_ne_nil hds.1
  have hwhole : Digits [c] :=
    ⟨by simp, fun d hd => hds.2 d (List.mem_singleton.1 hd ▸ List.mem_cons_self ..)⟩
  unfold scientific
  simp only
  rw [List.take_succ_cons, List.take_zero, List.drop_succ_cons, List.drop_zero, List.append_assoc]
  split
  · rename_i hlen
    obtain rfl : rest = [] := List.length_eq_zero_iff.1 (by rw [List.length_cons] at hlen; omega)
    exact readsAs_digits power hwhole .none hfollows hn
      (by rw [List.tail_nil, List.length_cons, List.length_nil]; omega)
  · rename_i hlen
    have hrest : Digits rest := by
      refine ⟨fun he => hlen ?_, fun d hd => hds.2 d (List.mem_cons_of_mem c hd)⟩
      rw [he, List.length_singleton]
    exact readsAs_digits power hwhole (.some hrest) hfollows hn
      (by rw [List.tail_cons, List.length_cons]; omega)
end

/-- The written form of a decimal is read with its value. -/
theorem readsAs_layout (n : Nat) (power : Int) : ReadsAs (layout n power) (n * 10 ^ power) := by
  unfold layout
  simp only
  split
  · exact readsAs_positional (digits_digits n) (ofDigits_digits n) power
  · exact readsAs_scientific (digits_digits n) (ofDigits_digits n) power

/-! ## The nearest double -/

theorem ratio_eq (d : Decimal) : ((d.ratio.1 : Nat) : ℚ) / (d.ratio.2 : Nat) = d.toRat :=
  Fraction.toRat_scaled d.coefficient (by decide : 0 < 10) d.exponent

/-- A decimal other than zero lies between the powers of ten around its order. -/
theorem order_bounds {d : Decimal} (hc : d.coefficient ≠ 0) :
    (10 : ℚ) ^ (d.order - 1) ≤ d.toRat ∧ d.toRat < 10 ^ d.order := by
  have hlen : 0 < (digits d.coefficient).length := List.length_pos_iff.2 (digits_ne_nil _)
  have hhigh : d.coefficient < 10 ^ (digits d.coefficient).length :=
    (Nat.length_toDigits_le_iff (by decide) hlen).1 (Nat.le_refl _)
  have hlow : 10 ^ ((digits d.coefficient).length - 1) ≤ d.coefficient := by
    by_cases hone : (digits d.coefficient).length - 1 = 0
    · rw [hone]
      omega
    · by_contra hlt
      have h := (Nat.length_toDigits_le_iff (b := 10) (by decide) (by omega)).2 (not_le.1 hlt)
      have hd : (digits d.coefficient).length ≤ (digits d.coefficient).length - 1 := h
      omega
  have hscale : (0 : ℚ) < 10 ^ d.exponent := zpow_pos (by norm_num) _
  have hbelow : d.order - 1 = (((digits d.coefficient).length - 1 : Nat) : Int) + d.exponent := by
    unfold order
    omega
  have hten : (10 : ℚ) ≠ 0 := by norm_num
  constructor
  · rw [hbelow, zpow_add₀ hten, zpow_natCast]
    exact mul_le_mul_of_nonneg_right (by exact_mod_cast hlow) hscale.le
  · rw [order, zpow_add₀ hten, zpow_natCast]
    exact mul_lt_mul_of_pos_right (by exact_mod_cast hhigh) hscale

end Decimal

namespace Binary64

theorem two_pow_lt_ten_pow : (2 : ℚ) ^ (1300 : Int) < 10 ^ (400 : Int) := by
  calc (2 : ℚ) ^ (1300 : Int) = ((2 : ℚ) ^ 13) ^ 100 := by rw [← pow_mul]; rfl
    _ < ((10 : ℚ) ^ 4) ^ 100 := pow_lt_pow_left₀ (by norm_num) (by norm_num) (by norm_num)
    _ = 10 ^ (400 : Int) := by rw [← pow_mul]; rfl

/-- What rounds to a double is within the range in which decimals are computed with. -/
theorem Rounds.range {x : Binary64} {q : ℚ} (hf : x.isFinite = true) (hz : x.isZero = false)
    (h : x.Rounds q) : (10 : ℚ) ^ (-400 : Int) < q ∧ q < 10 ^ (400 : Int) := by
  obtain ⟨hl, hh, -⟩ := h.bounds hz
  have hp := two_zpow_pos x.scale
  have hmin := x.minScale_le_scale
  have hmax := scale_le hf
  have hbound := two_pow_lt_ten_pow
  constructor
  · have hm : (1 : ℚ) ≤ x.mantissa := by exact_mod_cast mantissa_pos hz
    have hlow : (2 : ℚ)⁻¹ ≤ q / 2 ^ x.scale := by
      split at hl <;> linarith
    rw [le_div_iff₀ hp, mul_comm, ← zpow_sub_one₀ two_ne_zero] at hlow
    calc (10 : ℚ) ^ (-400 : Int) = (10 ^ (400 : Int))⁻¹ := zpow_neg ..
      _ < (2 ^ (1300 : Int))⁻¹ := inv_strictAnti₀ (two_zpow_pos 1300) hbound
      _ = 2 ^ (-1300 : Int) := (zpow_neg ..).symm
      _ ≤ 2 ^ (x.scale - 1) := zpow_le_zpow_right₀ one_le_two (by omega)
      _ ≤ q := hlow
  · have hm : (x.mantissa : ℚ) + 1 ≤ 2 ^ 53 := by exact_mod_cast mantissa_lt x
    have hhigh : q / 2 ^ x.scale < 2 ^ 53 := by linarith
    calc q < 2 ^ (x.scale + (53 : Nat)) := (lt_zpow_iff_div_lt 53).2 hhigh
      _ ≤ 2 ^ (1300 : Int) := zpow_le_zpow_right₀ one_le_two (by omega)
      _ < 10 ^ (400 : Int) := hbound

theorem nearest_of_rounds_decimal {x : Binary64} {d : Decimal} (hf : x.isFinite = true)
    (hz : x.isZero = false) (h : x.Rounds d.toRat) : d.nearest .double = x.magnitude := by
  have hpos := h.pos hz
  obtain ⟨hlow, hhigh⟩ := h.range hf hz
  have hc : d.coefficient ≠ 0 := by
    intro hzero
    rw [Decimal.toRat, hzero, Nat.cast_zero, zero_mul] at hpos
    exact lt_irrefl _ hpos
  obtain ⟨hl, hh⟩ := Decimal.order_bounds hc
  have hten : (1 : ℚ) < 10 := by norm_num
  have hmin := (zpow_lt_zpow_iff_right₀ hten).1 (hlow.trans hh)
  have hmax := (zpow_lt_zpow_iff_right₀ hten).1 (hl.trans_lt hhigh)
  have hden : 0 < d.ratio.2 := tenPow_pos _
  rw [← Decimal.ratio_eq] at h
  rw [Decimal.nearest, if_neg (by omega), if_neg (by omega)]
  exact nearest_of_rounds hf hz hden h

theorem ofMagnitude_magnitude (x : Binary64) : ofMagnitude x.negative x.magnitude = x := by
  have hlt := x.bits.toNat_lt
  have hbits : (if x.negative = true then 0x8000000000000000 else 0) + x.magnitude = x.bits.toNat := by
    unfold negative magnitude
    simp only [decide_eq_true_eq]
    split <;> omega
  rw [ofMagnitude, hbits, UInt64.ofNat_toNat]

/-- The decimal that the text of a double is read as. -/
theorem ofDecimal_of_shortest {x : Binary64} {d : Decimal} (hf : x.isFinite = true)
    (hn : d.negative = x.negative)
    (hd : d.toRat = (x.shortest .even).1 * (10 : ℚ) ^ (x.shortest .even).2) : ofDecimal d = x := by
  have hnearest : d.nearest .double = x.magnitude := by
    cases hz : x.isZero with
    | false =>
      have hrounds := rounds_shortest .even hf hz
      rw [← hd] at hrounds
      exact nearest_of_rounds_decimal hf hz hrounds
    | true =>
      have hmagnitude : x.magnitude = 0 := by simpa [isZero] using hz
      rw [shortest, hz] at hd
      have hten : (10 : ℚ) ^ d.exponent ≠ 0 := zpow_ne_zero _ (by norm_num)
      have hc : d.coefficient = 0 := by simpa [Decimal.toRat, hten] using hd
      rw [Decimal.nearest, if_pos (.inl hc), hmagnitude]
  rw [ofDecimal, hn, hnearest, ofMagnitude_magnitude]

theorem chars_eq {x : Binary64} (hf : x.isFinite = true) :
    x.chars = (if x.negative then ['-'] else []) ++
      Decimal.layout (x.shortest .even).1 (x.shortest .even).2 := by
  unfold chars
  simp only [isNaN_of_isFinite hf, hf, if_true, Bool.false_eq_true, if_false]

/-- A finite double is the one read from its text. -/
theorem ofText?_text {x : Binary64} (hf : x.isFinite = true) : ofText? x.text = some x := by
  obtain ⟨d, hread, hn, hd⟩ :=
    Decimal.readsAs_layout (x.shortest .even).1 (x.shortest .even).2 x.negative
  have hchars : Decimal.ofChars? x.chars = some d := by
    obtain ⟨c, tail, hlayout, hc⟩ := (magnitude_layout (shortest_coefficient .even hf)).exists_cons
    rw [chars_eq hf]
    cases hsign : x.negative with
    | true =>
      rw [hsign] at hread
      exact hread
    | false =>
      have hplus : c ≠ '+' := by
        rintro rfl
        exact absurd hc (by decide)
      have hminus : c ≠ '-' := by
        rintro rfl
        exact absurd hc (by decide)
      rw [hsign, hlayout] at hread
      rw [hlayout]
      simp [Decimal.ofChars?, hplus, hminus, hread]
  rw [ofText?, text, String.toList_ofList, hchars, Option.map_some, ofDecimal_of_shortest hf hn hd]
  rfl

end Binary64

/-! ## Other readers -/

theorem integer?_eq_none_of_mem {cs : List Char} {c : Char} (hc : c ∈ cs) (hd : isDigit c = false)
    (hm : c ≠ '-') : integer? cs = none := by
  have hnatural : ∀ ds : List Char, c ∈ ds → natural? ds = none := by
    intro ds hmem
    refine if_neg fun h => ?_
    have hdigit := List.all_eq_true.1 h.2 c hmem
    rw [hd] at hdigit
    cases hdigit
  unfold integer?
  split
  · rw [hnatural _ ((List.mem_cons.1 hc).resolve_left hm)]
    rfl
  · rw [hnatural _ hc]
    rfl

namespace Decimal

theorem mem_positional {ds : List Char} (hds : ∀ c ∈ ds, isDigit c = true) (order : Int) :
    '.' ∈ positional ds order ∧ ∀ c ∈ positional ds order, isDigit c = true ∨ c = '.' := by
  unfold positional
  split
  · refine ⟨by simp, fun c hc => ?_⟩
    rcases List.mem_cons.1 hc with rfl | hc
    · exact .inl rfl
    · rcases List.mem_cons.1 hc with rfl | hc
      · exact .inr rfl
      · rcases List.mem_append.1 hc with hc | hc
        · exact .inl (isDigit_of_mem_zeros hc)
        · exact .inl (hds c hc)
  · refine ⟨by simp, fun c hc => ?_⟩
    rcases List.mem_append.1 hc with hc | hc
    · rcases List.mem_append.1 hc with hc | hc
      · exact .inl (hds c (List.mem_of_mem_take hc))
      · exact .inl (isDigit_of_mem_zeros hc)
    · rcases List.mem_cons.1 hc with rfl | hc
      · exact .inr rfl
      · split at hc
        · rw [List.mem_singleton.1 hc]
          exact .inl rfl
        · exact .inl (hds c (List.mem_of_mem_drop hc))

/-- A written decimal has a point or a power of ten, and this is signed. -/
theorem layout_parts (n : Nat) (power : Int) :
    ∃ front back, layout n power = front ++ back ∧ (∀ c ∈ front, isDigit c = true ∨ c = '.') ∧
      (back = [] ∧ '.' ∈ front ∨ ∃ sign ds, back = 'e' :: sign :: ds ∧ (sign = '-' ∨ sign = '+')) := by
  have hds : ∀ c ∈ digits n, isDigit c = true := fun c hc => isDigit_of_mem_digits hc
  unfold layout
  simp only
  split
  · obtain ⟨hpoint, hall⟩ := mem_positional hds ((digits n).length + power)
    exact ⟨_, [], (List.append_nil _).symm, hall, .inl ⟨rfl, hpoint⟩⟩
  · refine ⟨_, _, rfl, fun c hc => ?_, .inr ⟨_, _, rfl, ite_eq_or_eq _ _ _⟩⟩
    rcases List.mem_append.1 hc with hc | hc
    · exact .inl (hds c (List.mem_of_mem_take hc))
    · split at hc
      · cases hc
      · rcases List.mem_cons.1 hc with rfl | hc
        · exact .inr rfl
        · exact .inl (hds c (List.mem_of_mem_drop hc))

end Decimal

namespace Binary64

/-- The text of a double is not the text of an integer. -/
theorem integer?_chars {x : Binary64} (hf : x.isFinite = true) : integer? x.chars = none := by
  obtain ⟨front, back, hlayout, -, hparts⟩ :=
    Decimal.layout_parts (x.shortest .even).1 (x.shortest .even).2
  rw [chars_eq hf, hlayout]
  rcases hparts with ⟨-, hpoint⟩ | ⟨sign, ds, rfl, -⟩
  · exact integer?_eq_none_of_mem
      (List.mem_append_right _ (List.mem_append_left _ hpoint)) rfl (by decide)
  · exact integer?_eq_none_of_mem
      (List.mem_append_right _ (List.mem_append_right _ (List.mem_cons_self ..))) rfl (by decide)

/-- A reader of JSON keeps the text of a double. -/
theorem keptNumber_chars {x : Binary64} (hf : x.isFinite = true) :
    Json.keptNumber x.chars = x.chars := by
  obtain ⟨front, back, hlayout, hfront, hparts⟩ :=
    Decimal.layout_parts (x.shortest .even).1 (x.shortest .even).2
  have hmark : ∀ c ∈ (if x.negative then ['-'] else []) ++ front, c ≠ 'e' ∧ c ≠ 'E' := by
    intro c hc
    rcases List.mem_append.1 hc with hc | hc
    · split at hc
      · rw [List.mem_singleton.1 hc]
        decide
      · cases hc
    · rcases hfront c hc with hd | rfl
      · exact Json.Grammar.ne_mark_of_isDigit hd
      · decide
  have hback : Json.keptNumber back = back := by
    rcases hparts with ⟨rfl, -⟩ | ⟨sign, ds, rfl, rfl | rfl⟩
    · rfl
    · rfl
    · rfl
  rw [chars_eq hf, hlayout, ← List.append_assoc, Json.Grammar.keptNumber_append hmark, hback]

end Binary64
end DocWire
