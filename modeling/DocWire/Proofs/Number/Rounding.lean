import Mathlib.Algebra.Order.Field.Power
import Mathlib.Data.Nat.Log
import Mathlib.Data.Rat.Cast.Order
import Mathlib.Tactic.FieldSimp
import Mathlib.Tactic.Linarith
import Mathlib.Tactic.NormNum
import Mathlib.Tactic.Positivity
import Mathlib.Tactic.Ring
import DocWire.Proofs.Number.Spelling

/-!
# The reals that round to a double

Fractions are read as rationals. A double is the nearest one of every rational between the midpoints
to its neighbours, and of the midpoints themselves if its mantissa is even. Main statement:
`nearest_of_rounds`.
-/
set_option autoImplicit false

namespace DocWire

/-! ## Fractions as rationals -/

namespace Fraction

def toRat (a : Fraction) : ℚ := a.num / a.den

theorem den_scaled_pos (n : Nat) {base : Nat} (hb : 0 < base) (power : Int) :
    0 < (scaled n base power).den := Nat.pow_pos hb

theorem toRat_scaled (n : Nat) {base : Nat} (hb : 0 < base) (power : Int) :
    (scaled n base power).toRat = n * (base : ℚ) ^ power := by
  have hne : (base : ℚ) ≠ 0 := Nat.cast_ne_zero.2 hb.ne'
  obtain ⟨k, rfl | rfl⟩ := power.eq_nat_or_neg
  · simp [scaled, toRat]
  · simp [scaled, toRat, div_eq_mul_inv]

theorem le_iff {a b : Fraction} (ha : 0 < a.den) (hb : 0 < b.den) :
    a.le b = true ↔ a.toRat ≤ b.toRat := by
  have ha' : (0 : ℚ) < a.den := Nat.cast_pos.2 ha
  have hb' : (0 : ℚ) < b.den := Nat.cast_pos.2 hb
  rw [le, decide_eq_true_eq, toRat, toRat, div_le_div_iff₀ ha' hb']
  exact_mod_cast Iff.rfl

theorem lt_iff {a b : Fraction} (ha : 0 < a.den) (hb : 0 < b.den) :
    a.lt b = true ↔ a.toRat < b.toRat := by
  have ha' : (0 : ℚ) < a.den := Nat.cast_pos.2 ha
  have hb' : (0 : ℚ) < b.den := Nat.cast_pos.2 hb
  rw [lt, decide_eq_true_eq, toRat, toRat, div_lt_div_iff₀ ha' hb']
  exact_mod_cast Iff.rfl

end Fraction

/-! ## Logarithms and quotients -/

theorem two_zpow_pos (e : Int) : (0 : ℚ) < 2 ^ e := zpow_pos (by norm_num) e

/-- Shifting both sides of a quotient by a power of two divides it by this power. -/
theorem shifted_div (num den : Nat) (e : Int) :
    ((num <<< (-e).toNat : Nat) : ℚ) / ((den <<< e.toNat : Nat) : ℚ) = num / den / 2 ^ e := by
  obtain ⟨k, rfl | rfl⟩ := e.eq_nat_or_neg
  · simp [Nat.shiftLeft_eq, div_div]
  · simp [Nat.shiftLeft_eq, div_mul_eq_mul_div]

theorem zpow_le_iff_le_div {q : ℚ} {e : Int} (k : Nat) :
    (2 : ℚ) ^ (e + (k : Int)) ≤ q ↔ (2 : ℚ) ^ k ≤ q / 2 ^ e := by
  rw [le_div_iff₀ (two_zpow_pos e), add_comm, zpow_add₀ two_ne_zero, zpow_natCast]

theorem lt_zpow_iff_div_lt {q : ℚ} {e : Int} (k : Nat) :
    q < (2 : ℚ) ^ (e + (k : Int)) ↔ q / 2 ^ e < (2 : ℚ) ^ k := by
  rw [div_lt_iff₀ (two_zpow_pos e), add_comm, zpow_add₀ two_ne_zero, zpow_natCast]

theorem floorLog2_spec {num den : Nat} (hn : 0 < num) (hd : 0 < den) :
    (2 : ℚ) ^ floorLog2 num den ≤ num / den ∧ (num : ℚ) / den < 2 ^ (floorLog2 num den + 1) := by
  have hn' : (0 : ℚ) < num := Nat.cast_pos.2 hn
  have hd' : (0 : ℚ) < den := Nat.cast_pos.2 hd
  have hnlow : (2 : ℚ) ^ num.log2 ≤ num := by exact_mod_cast Nat.log2_self_le hn.ne'
  have hnhigh : (num : ℚ) < 2 ^ (num.log2 + 1) := by exact_mod_cast Nat.lt_log2_self
  have hdlow : (2 : ℚ) ^ den.log2 ≤ den := by exact_mod_cast Nat.log2_self_le hd.ne'
  have hdhigh : (den : ℚ) < 2 ^ (den.log2 + 1) := by exact_mod_cast Nat.lt_log2_self
  unfold floorLog2
  simp only
  generalize hg : (num.log2 : Int) - (den.log2 : Int) = guess
  have hlow : (2 : ℚ) ^ (guess - 1) ≤ num / den := by
    have hsub : guess - 1 = (num.log2 : Int) - ((den.log2 + 1 : Nat) : Int) := by omega
    rw [hsub, zpow_sub₀ two_ne_zero, zpow_natCast, zpow_natCast]
    exact div_le_div₀ hn'.le hnlow hd' hdhigh.le
  have hhigh : (num : ℚ) / den < 2 ^ (guess + 1) := by
    have hsub : guess + 1 = ((num.log2 + 1 : Nat) : Int) - (den.log2 : Int) := by omega
    rw [hsub, zpow_sub₀ two_ne_zero, zpow_natCast, zpow_natCast]
    exact div_lt_div₀ hnhigh hdlow (by positivity) (by positivity)
  have hshift : num <<< (-guess).toNat < den <<< guess.toNat ↔ (num : ℚ) / den < 2 ^ guess := by
    have hs := shifted_div num den guess
    have hpos : (0 : ℚ) < ((den <<< guess.toNat : Nat) : ℚ) := by
      rw [Nat.shiftLeft_eq]
      positivity
    rw [← div_lt_one (two_zpow_pos guess), ← hs, div_lt_one hpos, Nat.cast_lt]
  split
  · rename_i h
    rw [hshift] at h
    exact ⟨hlow, by rwa [sub_add_cancel]⟩
  · rename_i h
    rw [hshift, not_lt] at h
    exact ⟨h, hhigh⟩

theorem floorLog2_eq {num den : Nat} {e : Int} (hn : 0 < num) (hd : 0 < den)
    (hl : (2 : ℚ) ^ e ≤ num / den) (hh : (num : ℚ) / den < 2 ^ (e + 1)) : floorLog2 num den = e := by
  obtain ⟨hl', hh'⟩ := floorLog2_spec hn hd
  have h1 := (zpow_lt_zpow_iff_right₀ one_lt_two).1 (hl.trans_lt hh')
  have h2 := (zpow_lt_zpow_iff_right₀ one_lt_two).1 (hl'.trans_lt hh)
  omega

theorem floorLog2_lt {num den : Nat} {e : Int} (hn : 0 < num) (hd : 0 < den)
    (hh : (num : ℚ) / den < 2 ^ e) : floorLog2 num den < e :=
  (zpow_lt_zpow_iff_right₀ one_lt_two).1 ((floorLog2_spec hn hd).1.trans_lt hh)

/-- A quotient is rounded to a number at a distance of one half, if it is even, or less. -/
theorem roundDiv_eq {num den m : Nat} (hd : 0 < den) (hl : (m : ℚ) - 1 / 2 ≤ num / den)
    (hh : (num : ℚ) / den ≤ m + 1 / 2)
    (ht : m % 2 = 0 ∨ (m : ℚ) - 1 / 2 < num / den ∧ (num : ℚ) / den < m + 1 / 2) :
    roundDiv num den = m := by
  have hd' : (0 : ℚ) < den := Nat.cast_pos.2 hd
  have hdiv := Nat.div_add_mod num den
  have hmod := Nat.mod_lt num hd
  -- The same bounds in natural numbers.
  have hlow : 2 * (den * m) ≤ 2 * num + den := by
    rw [le_div_iff₀ hd'] at hl
    have h : (2 : ℚ) * (den * m) ≤ 2 * num + den := by linarith
    exact_mod_cast h
  have hhigh : 2 * num ≤ 2 * (den * m) + den := by
    rw [div_le_iff₀ hd'] at hh
    have h : (2 : ℚ) * num ≤ 2 * (den * m) + den := by linarith
    exact_mod_cast h
  have htie : m % 2 = 0 ∨ 2 * (den * m) < 2 * num + den ∧ 2 * num < 2 * (den * m) + den := by
    refine ht.imp id fun h => ?_
    obtain ⟨h1, h2⟩ := h
    rw [lt_div_iff₀ hd'] at h1
    rw [div_lt_iff₀ hd'] at h2
    have h1 : (2 : ℚ) * (den * m) < 2 * num + den := by linarith
    have h2 : (2 : ℚ) * num < 2 * (den * m) + den := by linarith
    exact ⟨by exact_mod_cast h1, by exact_mod_cast h2⟩
  unfold roundDiv
  simp only
  generalize num / den = quotient at hdiv ⊢
  generalize num % den = rest at hdiv hmod ⊢
  have hq : quotient = m ∨ quotient + 1 = m := by
    by_contra hne
    have hfar : m + 1 ≤ quotient ∨ quotient + 2 ≤ m := by omega
    rcases hfar with h | h
    · have hm := Nat.mul_le_mul_left den h
      rw [Nat.mul_add] at hm
      omega
    · have hm := Nat.mul_le_mul_left den h
      rw [Nat.mul_add] at hm
      omega
  rcases hq with rfl | rfl
  · split
    · rfl
    · split
      · omega
      · rw [if_pos (by omega)]
  · rw [Nat.mul_add] at hlow hhigh htie
    split
    · omega
    · split
      · rfl
      · rw [if_neg (by omega)]

theorem BinaryLayout.nearest_double {num den m : Nat} {s : Int} (hn : 0 < num)
    (hs : max (floorLog2 num den - 52) (-1074) = s)
    (hr : roundDiv (num <<< (-s).toNat) (den <<< s.toNat) = m)
    (hf : (s + 1074).toNat * 2 ^ 52 + m < BinaryLayout.double.infinity) :
    BinaryLayout.double.nearest num den = (s + 1074).toNat * 2 ^ 52 + m := by
  have hscale : max (floorLog2 num den - ((BinaryLayout.double.precision : Int) - 1))
      BinaryLayout.double.minScale = s := hs
  have hcount : (s - BinaryLayout.double.minScale).toNat <<< (BinaryLayout.double.precision - 1) =
      (s + 1074).toNat * 2 ^ 52 := Nat.shiftLeft_eq ..
  unfold nearest
  rw [if_neg hn.ne']
  simp only
  rw [hscale, hcount, hr]
  exact Nat.min_eq_left hf.le

namespace Binary64

/-! ## Encodings -/

/-- Encodings count mantissas, from the least power of two on. -/
theorem magnitude_eq (x : Binary64) :
    x.magnitude = (x.scale + 1074).toNat * 2 ^ 52 + x.mantissa := by
  unfold scale mantissa BinaryLayout.scale BinaryLayout.mantissa
  simp only [BinaryLayout.double, Nat.shiftRight_eq_div_pow, Nat.one_shiftLeft]
  split <;> omega

theorem minScale_le_scale (x : Binary64) : -1074 ≤ x.scale := by
  unfold scale BinaryLayout.scale
  simp only [BinaryLayout.double, Nat.shiftRight_eq_div_pow]
  split <;> omega

theorem scale_of_mantissa_lt {x : Binary64} (h : x.mantissa < 2 ^ 52) : x.scale = -1074 := by
  unfold mantissa BinaryLayout.mantissa at h
  unfold scale BinaryLayout.scale
  simp only [BinaryLayout.double, Nat.shiftRight_eq_div_pow, Nat.one_shiftLeft] at h ⊢
  split
  · rfl
  · rename_i hfield
    rw [if_neg hfield] at h
    omega

theorem narrowBelow_iff (x : Binary64) :
    x.narrowBelow = true ↔ x.mantissa = 2 ^ 52 ∧ -1074 < x.scale := by
  have hm := magnitude_eq x
  have hs := minScale_le_scale x
  have hlt := mantissa_lt x
  have hsub := scale_of_mantissa_lt (x := x)
  simp only [narrowBelow, Bool.and_eq_true, decide_eq_true_eq]
  omega

/-! ## The interval around a double -/

theorem toRat_upperBound (x : Binary64) :
    x.upperBound.toRat = ((x.mantissa : ℚ) + 1 / 2) * 2 ^ x.scale := by
  rw [upperBound, Fraction.toRat_scaled _ two_pos, Nat.cast_ofNat, zpow_sub₀ two_ne_zero]
  push_cast
  ring

theorem toRat_value (x : Binary64) : x.value.toRat = (x.mantissa : ℚ) * 2 ^ x.scale := by
  rw [value, Fraction.toRat_scaled _ two_pos, Nat.cast_ofNat]

theorem toRat_lowerBound {x : Binary64} (hz : x.isZero = false) :
    x.lowerBound.toRat =
      ((x.mantissa : ℚ) - if x.narrowBelow then 1 / 4 else 1 / 2) * 2 ^ x.scale := by
  have hm := mantissa_pos hz
  rw [lowerBound, Fraction.toRat_scaled _ two_pos, Nat.cast_ofNat, zpow_sub₀ two_ne_zero]
  split
  · rw [Nat.cast_sub (by omega)]
    push_cast
    ring
  · rw [Nat.cast_sub (by omega)]
    push_cast
    ring

/-- A rational lies among those that round to a double. -/
def Rounds (x : Binary64) (q : ℚ) : Prop :=
  if x.mantissa % 2 = 0 then x.lowerBound.toRat ≤ q ∧ q ≤ x.upperBound.toRat
  else x.lowerBound.toRat < q ∧ q < x.upperBound.toRat

theorem readsBack_iff (x : Binary64) (n : Nat) (power : Int) :
    x.readsBack n power = true ↔ x.Rounds (n * (10 : ℚ) ^ power) := by
  have hd := Fraction.den_scaled_pos n (by decide : 0 < 10) power
  have hl : 0 < x.lowerBound.den := Fraction.den_scaled_pos _ two_pos _
  have hu : 0 < x.upperBound.den := Fraction.den_scaled_pos _ two_pos _
  have hq : (Fraction.scaled n 10 power).toRat = n * (10 : ℚ) ^ power :=
    Fraction.toRat_scaled n (by decide) power
  unfold readsBack Rounds
  simp only
  split
  · rw [Bool.and_eq_true, Fraction.le_iff hl hd, Fraction.le_iff hd hu, hq]
  · rw [Bool.and_eq_true, Fraction.lt_iff hl hd, Fraction.lt_iff hd hu, hq]

/-- The bounds of the interval, in units of the last place. -/
theorem Rounds.bounds {x : Binary64} {q : ℚ} (hz : x.isZero = false) (h : x.Rounds q) :
    (x.mantissa : ℚ) - (if x.narrowBelow then 1 / 4 else 1 / 2) ≤ q / 2 ^ x.scale ∧
      q / 2 ^ x.scale ≤ x.mantissa + 1 / 2 ∧
      (x.mantissa % 2 = 0 ∨
        (x.mantissa : ℚ) - (if x.narrowBelow then 1 / 4 else 1 / 2) < q / 2 ^ x.scale ∧
          q / 2 ^ x.scale < x.mantissa + 1 / 2) := by
  have hp := two_zpow_pos x.scale
  unfold Rounds at h
  rw [toRat_lowerBound hz, toRat_upperBound, ← le_div_iff₀ hp, ← lt_div_iff₀ hp, ← div_le_iff₀ hp,
    ← div_lt_iff₀ hp] at h
  split at h
  · rename_i heven
    exact ⟨h.1, h.2, .inl heven⟩
  · exact ⟨h.1.le, h.2.le, .inr h⟩

theorem Rounds.pos {x : Binary64} {q : ℚ} (hz : x.isZero = false) (h : x.Rounds q) : 0 < q := by
  have hp := two_zpow_pos x.scale
  have hm : (1 : ℚ) ≤ x.mantissa := by exact_mod_cast mantissa_pos hz
  obtain ⟨hl, -, -⟩ := h.bounds hz
  have hunit : 0 < q / 2 ^ x.scale := by
    split at hl <;> linarith
  exact (div_pos_iff_of_pos_right hp).1 hunit

section
variable {x : Binary64} {num den : Nat}

/-- Below a power of two, where the doubles lie closer, the nearest encoding is reached by a carry
of the mantissa. -/
theorem nearest_of_rounds_below (hf : x.isFinite = true) (hz : x.isZero = false) (hn : 0 < num)
    (hd : 0 < den) (h : x.Rounds (num / den)) (hnarrow : x.narrowBelow = true)
    (hlt : (num : ℚ) / den / 2 ^ x.scale < 2 ^ 52) :
    BinaryLayout.double.nearest num den = x.magnitude := by
  obtain ⟨hm, hscale⟩ := (narrowBelow_iff x).1 hnarrow
  obtain ⟨hl, -, -⟩ := h.bounds hz
  have hmag := magnitude_eq x
  have hfin : x.magnitude < BinaryLayout.double.infinity := by
    rw [isFinite, decide_eq_true_eq] at hf
    exact hf
  rw [if_pos hnarrow, hm] at hl
  have hmlt : ((2 ^ 52 : Nat) : ℚ) = 2 ^ 52 := by norm_num
  rw [hmlt] at hl
  have hlog : floorLog2 num den = x.scale + 51 := by
    refine floorLog2_eq hn hd ?_ ?_
    · have hle : (2 : ℚ) ^ 51 ≤ num / den / 2 ^ x.scale := by linarith
      exact (zpow_le_iff_le_div 51).2 hle
    · rw [add_assoc]
      exact (lt_zpow_iff_div_lt 52).2 hlt
  have hhalf : (num : ℚ) / den / 2 ^ (x.scale - 1) = 2 * (num / den / 2 ^ x.scale) := by
    rw [zpow_sub_one₀ two_ne_zero]
    field_simp
  have hround : roundDiv (num <<< (-(x.scale - 1)).toNat) (den <<< (x.scale - 1).toNat) = 2 ^ 53 := by
    refine roundDiv_eq (by rw [Nat.shiftLeft_eq]; positivity) ?_ ?_ (.inl (by decide))
    · rw [shifted_div, hhalf]
      push_cast
      linarith
    · rw [shifted_div, hhalf]
      push_cast
      linarith
  have hresult := BinaryLayout.nearest_double hn (by rw [hlog]; omega) hround (by omega)
  omega

/-- Elsewhere the nearest encoding has the double's own power of two. -/
theorem nearest_of_rounds_scale (hf : x.isFinite = true) (hz : x.isZero = false) (hn : 0 < num)
    (hd : 0 < den) (h : x.Rounds (num / den))
    (hge : x.narrowBelow = true → 2 ^ 52 ≤ (num : ℚ) / den / 2 ^ x.scale) :
    BinaryLayout.double.nearest num den = x.magnitude := by
  obtain ⟨hl, hh, ht⟩ := h.bounds hz
  have hmag := magnitude_eq x
  have hmin := minScale_le_scale x
  have hmlt : (x.mantissa : ℚ) + 1 ≤ 2 ^ 53 := by exact_mod_cast mantissa_lt x
  have hfin : x.magnitude < BinaryLayout.double.infinity := by
    rw [isFinite, decide_eq_true_eq] at hf
    exact hf
  have hlog : max (floorLog2 num den - 52) (-1074) = x.scale := by
    by_cases hbig : (2 : ℚ) ^ 52 ≤ num / den / 2 ^ x.scale
    · have hlog : floorLog2 num den = x.scale + 52 := by
        refine floorLog2_eq hn hd ((zpow_le_iff_le_div 52).2 hbig) ?_
        have hlt : (num : ℚ) / den / 2 ^ x.scale < 2 ^ 53 := by linarith
        rw [add_assoc]
        exact (lt_zpow_iff_div_lt 53).2 hlt
      omega
    · have hlt := not_le.1 hbig
      have hleast : x.scale = -1074 := by
        by_contra hne
        have hm : 2 ^ 52 ≤ x.mantissa := by
          by_contra hsmall
          exact hne (scale_of_mantissa_lt (not_le.1 hsmall))
        have hwide : ¬ x.narrowBelow = true := fun hnarrow => hbig (hge hnarrow)
        have hmore : 2 ^ 52 + 1 ≤ x.mantissa := by
          have hnot := mt (narrowBelow_iff x).2 hwide
          omega
        have hmore : (2 : ℚ) ^ 52 + 1 ≤ x.mantissa := by exact_mod_cast hmore
        rw [if_neg hwide] at hl
        linarith
      have hlog := floorLog2_lt hn hd ((lt_zpow_iff_div_lt 52).2 hlt)
      omega
  have hround : roundDiv (num <<< (-x.scale).toNat) (den <<< x.scale.toNat) = x.mantissa := by
    have hhalf : (x.mantissa : ℚ) - 1 / 2 ≤
        x.mantissa - (if x.narrowBelow then 1 / 4 else 1 / 2) := by
      split <;> linarith
    refine roundDiv_eq (by rw [Nat.shiftLeft_eq]; positivity) ?_ ?_ ?_
    · rw [shifted_div]
      exact hhalf.trans hl
    · rw [shifted_div]
      exact hh
    · rw [shifted_div]
      exact ht.imp id fun hs => ⟨hhalf.trans_lt hs.1, hs.2⟩
  rw [hmag] at hfin ⊢
  exact BinaryLayout.nearest_double hn hlog hround hfin
end

/-- A double is the nearest one of what rounds to it. -/
theorem nearest_of_rounds {x : Binary64} (hf : x.isFinite = true) (hz : x.isZero = false)
    {num den : Nat} (hd : 0 < den) (h : x.Rounds (num / den)) :
    BinaryLayout.double.nearest num den = x.magnitude := by
  have hd' : (0 : ℚ) < den := Nat.cast_pos.2 hd
  have hn : 0 < num := Nat.cast_pos.1 ((div_pos_iff_of_pos_right hd').1 (h.pos hz))
  by_cases hbelow : x.narrowBelow = true ∧ (num : ℚ) / den / 2 ^ x.scale < 2 ^ 52
  · exact nearest_of_rounds_below hf hz hn hd h hbelow.1 hbelow.2
  · refine nearest_of_rounds_scale hf hz hn hd h fun hnarrow => ?_
    exact not_lt.1 fun hlt => hbelow ⟨hnarrow, hlt⟩

end Binary64
end DocWire
