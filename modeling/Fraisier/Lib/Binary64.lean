import Mathlib.Data.Rat.Floor
import Mathlib.Algebra.Order.Field.Power
import Mathlib.Tactic.Linarith
import Mathlib.Tactic.NormNum
import Mathlib.Tactic.Ring
import Mathlib.Tactic.FieldSimp
import Fraisier.Lib.JsonValue

/-!
# Rounding to binary64

What `nearest` gives for a fraction: a multiple of a power of two that is at most half of it away,
where the power is as small as the 53 bits of the significand allow (`Nearest`). From that alone it
follows that powers of two and small whole numbers are not passed over: `Nearest.pow_le`,
`Nearest.lt_pow` and `Nearest.le_natCast`. A product of a binary64 number with a thousand stays below
a power of two by more than is rounded away, so that it reaches one when it does before it is
rounded: `FitsSignificand.pow_le_iff`.
-/

namespace Fraisier.Lib.Json

/-! ## The rounded fraction -/

/-- A rounded number, and what it was: `n` is the significand and `k` the exponent of its last bit. -/
structure Nearest (x y : ℚ) where
  k : ℤ
  n : ℕ
  value : y = n * 2 ^ k
  lower : 2 ^ (k + 52) ≤ x ∨ k = -1074
  below : 2 * (n * 2 ^ k) ≤ 2 * x + (2 : ℚ) ^ k
  above : 2 * x ≤ 2 * (n * 2 ^ k) + (2 : ℚ) ^ k

variable {num den a b : ℕ} {x y : ℚ}

/-- A scaled denominator is positive. -/
theorem scaled_pos (num : ℕ) (hden : 0 < den) (k : ℤ) : 0 < (scaled num den k).2 :=
  Nat.mul_pos hden (Nat.two_pow_pos _)

/-- The scaled fraction. -/
theorem scaled_div (num den : ℕ) (k : ℤ) :
    ((scaled num den k).1 : ℚ) / (scaled num den k).2 = num / den / 2 ^ k := by
  unfold scaled
  obtain ⟨n, rfl | rfl⟩ := Int.eq_nat_or_neg k
  · have hzero : (-(n : ℤ)).toNat = 0 := by omega
    simp only [hzero, Int.toNat_natCast, pow_zero, mul_one, Nat.cast_mul, Nat.cast_pow,
      Nat.cast_ofNat, zpow_natCast, div_div]
  · have hzero : (-(n : ℤ)).toNat = 0 := by omega
    simp only [neg_neg, Int.toNat_natCast, hzero, pow_zero, mul_one, Nat.cast_mul, Nat.cast_pow,
      Nat.cast_ofNat, zpow_neg, zpow_natCast, div_inv_eq_mul]
    ring

/-- The integer next to a fraction is at most one half away. -/
theorem roundHalfEven_spec (hb : 0 < b) : 2 * (roundHalfEven a b * b) ≤ 2 * a + b ∧
    2 * a ≤ 2 * (roundHalfEven a b * b) + b := by
  have hdiv : a / b * b + a % b = a := Nat.div_add_mod' a b
  have hmod : a % b < b := Nat.mod_lt a hb
  unfold roundHalfEven
  dsimp only
  split
  · next h =>
    simp only [Bool.or_eq_true, Bool.and_eq_true, decide_eq_true_eq] at h
    omega
  · next h =>
    simp only [Bool.or_eq_true, Bool.and_eq_true, decide_eq_true_eq] at h
    rw [Nat.add_mul]
    omega

/-- Rounding is off by a half at most. -/
theorem roundHalfEven_div (hb : 0 < b) :
    2 * (roundHalfEven a b : ℚ) ≤ 2 * (a / b) + 1 ∧
      2 * ((a : ℚ) / b) ≤ 2 * roundHalfEven a b + 1 := by
  obtain ⟨hbelow, habove⟩ := roundHalfEven_spec (a := a) hb
  have hpos : (0 : ℚ) < b := by exact_mod_cast hb
  have hdiv : (a : ℚ) / b * b = a := div_mul_cancel₀ _ hpos.ne'
  constructor
  · have hcast : 2 * ((roundHalfEven a b : ℚ) * b) ≤ 2 * a + b := by exact_mod_cast hbelow
    refine le_of_mul_le_mul_right ?_ hpos
    linarith
  · have hcast : 2 * (a : ℚ) ≤ 2 * (roundHalfEven a b * b) + b := by exact_mod_cast habove
    refine le_of_mul_le_mul_right ?_ hpos
    linarith

/-- The exponent of the last bit leaves 53 bits, unless it is the least one. -/
theorem lastBit_spec (hnum : 0 < num) (hden : 0 < den) :
    (2 : ℚ) ^ (lastBit num den + 52) ≤ num / den ∨ lastBit num den = -1074 := by
  -- The quotient of the leading bits is a bound from below.
  have hfloor : (2 : ℚ) ^ ((num.log2 : ℤ) - den.log2 - 1) ≤ num / den := by
    have hlow : (2 : ℚ) ^ num.log2 ≤ num := by
      exact_mod_cast Nat.log2_self_le hnum.ne'
    have hhigh : (den : ℚ) ≤ 2 ^ (den.log2 + 1) := by
      exact_mod_cast Nat.lt_log2_self.le
    have hpow : (2 : ℚ) ^ ((num.log2 : ℤ) - den.log2 - 1) = 2 ^ num.log2 / 2 ^ (den.log2 + 1) := by
      rw [sub_sub, zpow_sub₀ (by norm_num)]
      norm_cast
    rw [hpow]
    exact div_le_div₀ (Nat.cast_nonneg _) hlow (Nat.cast_pos.mpr hden) hhigh
  unfold lastBit
  dsimp only
  -- The first guess may be one too large.
  generalize hk : (num.log2 : ℤ) - den.log2 - 52 = k
  have hscaled := scaled_div num den k
  have hpos := scaled_pos num hden k
  rcases hpair : scaled num den k with ⟨a, b⟩
  rw [hpair] at hscaled hpos
  dsimp only at hscaled hpos ⊢
  split
  · rw [show (num.log2 : ℤ) - den.log2 - 1 = k - 1 + 52 by omega] at hfloor
    obtain hmax | hmax := max_choice (k - 1) (-1074)
    · rw [hmax]
      exact .inl hfloor
    · exact .inr hmax
  · next hle =>
    obtain hmax | hmax := max_choice k (-1074)
    · rw [hmax, add_comm, zpow_add₀ (by norm_num)]
      left
      rw [← le_div_iff₀ (by positivity), ← hscaled, le_div_iff₀ (by exact_mod_cast hpos)]
      exact_mod_cast Nat.le_of_not_lt hle
    · exact .inr hmax

/-- What `nearest` gives. Only a number from `2 ^ 1023` on is rounded to infinity. -/
theorem nearest_cases (hnum : 0 < num) (hden : 0 < den) :
    (∃ y, nearest false num den = .finite y ∧ Nonempty (Nearest (num / den) y)) ∨
      nearest false num den = .infinity false ∧ (2 : ℚ) ^ (1023 : ℤ) ≤ num / den := by
  have hlast := lastBit_spec hnum hden
  unfold nearest
  rw [if_neg hnum.ne']
  generalize lastBit num den = k at hlast ⊢
  have hscaled := scaled_div num den k
  have hpos := scaled_pos num hden k
  rcases hpair : scaled num den k with ⟨a, b⟩
  rw [hpair] at hscaled hpos
  dsimp only at hscaled hpos ⊢
  split
  -- What is beyond the largest exponent is rounded to infinity.
  · next hover =>
    right
    simp only [Bool.or_eq_true, Bool.and_eq_true, decide_eq_true_eq] at hover
    refine ⟨rfl, ?_⟩
    obtain hlast | hlast := hlast
    · exact le_trans (zpow_le_zpow_right₀ (by norm_num) (by omega)) hlast
    · omega
  -- Everything else is rounded in units of its last bit.
  · left
    obtain ⟨hbelow, habove⟩ := roundHalfEven_div (a := a) hpos
    have hunit : (0 : ℚ) < 2 ^ k := by positivity
    have hx : (num : ℚ) / den = a / b * 2 ^ k := by
      rw [hscaled, div_mul_cancel₀ _ hunit.ne']
    refine ⟨_, rfl, ⟨k, roundHalfEven a b, by simp [hpair], hlast, ?_, ?_⟩⟩
    · rw [hx]
      nlinarith
    · rw [hx]
      nlinarith

namespace Nearest

/-- A multiple of the last bit is not passed, from below. -/
theorem mul_le (h : Nearest x y) {m : ℕ} (hx : m * 2 ^ h.k ≤ x) : m * 2 ^ h.k ≤ y := by
  have hunit : (0 : ℚ) < 2 ^ h.k := by positivity
  have hlt : (2 * m : ℚ) ≤ 2 * h.n + 1 := by
    refine le_of_mul_le_mul_right ?_ hunit
    linarith [h.above]
  have hle : m ≤ h.n := by
    have hnat : 2 * m ≤ 2 * h.n + 1 := by exact_mod_cast hlt
    omega
  refine le_of_le_of_eq ?_ h.value.symm
  exact mul_le_mul_of_nonneg_right (by exact_mod_cast hle) hunit.le

/-- A multiple of the last bit is not passed, from above. -/
theorem le_mul (h : Nearest x y) {m : ℕ} (hx : x ≤ m * 2 ^ h.k) : y ≤ m * 2 ^ h.k := by
  have hunit : (0 : ℚ) < 2 ^ h.k := by positivity
  have hlt : (2 * h.n : ℚ) ≤ 2 * m + 1 := by
    refine le_of_mul_le_mul_right ?_ hunit
    linarith [h.below]
  have hle : h.n ≤ m := by
    have hnat : 2 * h.n ≤ 2 * m + 1 := by exact_mod_cast hlt
    omega
  refine le_of_eq_of_le h.value ?_
  exact mul_le_mul_of_nonneg_right (by exact_mod_cast hle) hunit.le

/-- A power of two that is reached stays reached. -/
theorem pow_le (h : Nearest x y) {j : ℤ} (hj : -1074 ≤ j) (hx : 2 ^ j ≤ x) : 2 ^ j ≤ y := by
  -- The spacing divides the power, or the power is below the whole binade.
  by_cases hk : h.k ≤ j
  · obtain ⟨d, hd⟩ := Int.le.dest hk
    have hpow : (2 : ℚ) ^ j = (2 ^ d : ℕ) * 2 ^ h.k := by
      rw [← hd, add_comm, zpow_add₀ (by norm_num), zpow_natCast, Nat.cast_pow, Nat.cast_ofNat]
    rw [hpow] at hx ⊢
    exact h.mul_le hx
  · obtain hlower | hlower := h.lower
    · have hpow : (2 : ℚ) ^ (h.k + 52) = (2 ^ 52 : ℕ) * 2 ^ h.k := by
        rw [add_comm, zpow_add₀ (by norm_num)]
        norm_num
      rw [hpow] at hlower
      refine le_trans ?_ (h.mul_le hlower)
      rw [← hpow]
      exact zpow_le_zpow_right₀ (by norm_num) (by omega)
    · omega

/-- A power of two that is missed by enough stays missed. -/
theorem lt_pow (h : Nearest x y) {j : ℤ} (hj : -1021 ≤ j) (hx : x + 2 ^ (j - 54) < 2 ^ j) :
    y < 2 ^ j := by
  have hbit : (0 : ℚ) < 2 ^ (j - 54) := by positivity
  have hk : h.k ≤ j - 53 := by
    obtain hlower | hlower := h.lower
    · have hlt : (2 : ℚ) ^ (h.k + 52) < 2 ^ j := by linarith
      have := (zpow_lt_zpow_iff_right₀ (by norm_num : (1 : ℚ) < 2)).mp hlt
      omega
    · omega
  have hunit : (2 : ℚ) ^ h.k ≤ 2 * 2 ^ (j - 54) := by
    rw [← zpow_one_add₀ (by norm_num)]
    exact zpow_le_zpow_right₀ (by norm_num) (by omega)
  rw [h.value]
  linarith [h.below]

/-- A whole number that fits in the significand is not passed. -/
theorem le_natCast (h : Nearest x y) {m : ℕ} (hm : m < 2 ^ 53) (hx : x ≤ m) : y ≤ m := by
  have hk : h.k ≤ 0 := by
    obtain hlower | hlower := h.lower
    · have hlt : (2 : ℚ) ^ (h.k + 52) < 2 ^ (53 : ℤ) :=
        lt_of_le_of_lt (hlower.trans hx) (by exact_mod_cast hm)
      have := (zpow_lt_zpow_iff_right₀ (by norm_num : (1 : ℚ) < 2)).mp hlt
      omega
    · omega
  obtain ⟨d, hd⟩ := Int.le.dest hk
  have hmul : (m : ℚ) = (m * 2 ^ d : ℕ) * 2 ^ h.k := by
    have hone : (2 : ℚ) ^ d * 2 ^ h.k = 1 := by
      rw [← zpow_natCast, ← zpow_add₀ (by norm_num), add_comm, hd, zpow_zero]
    rw [Nat.cast_mul, Nat.cast_pow, Nat.cast_ofNat, mul_assoc, hone, mul_one]
  rw [hmul] at hx ⊢
  exact h.le_mul hx

end Nearest

/-! ## Products with a thousand -/

/-- 53 bits are enough for the number, as for each of binary64. -/
def FitsSignificand (x : ℚ) : Prop := ∃ (m : ℕ) (e : ℤ), m < 2 ^ 53 ∧ x = m * 2 ^ e

/-- A product below a power of two is below it by more than is rounded away. -/
theorem FitsSignificand.thousand_mul_lt (h : FitsSignificand x) {j : ℤ} (hx : 1000 * x < 2 ^ j) :
    1000 * x + 2 ^ (j - 54) < 2 ^ j := by
  obtain ⟨m, e, hm, rfl⟩ := h
  by_cases he : j - 62 ≤ e
  · -- in units of `2 ^ (j - 62)` both sides are whole, and the power is not a multiple of `1000`
    obtain ⟨d, rfl⟩ := Int.le.dest he
    have hunit : (0 : ℚ) < 2 ^ (j - 62) := by positivity
    have hleft : 1000 * ((m : ℚ) * 2 ^ (j - 62 + d)) = (1000 * (m * 2 ^ d) : ℕ) * 2 ^ (j - 62) := by
      rw [zpow_add₀ (by norm_num), zpow_natCast]
      push_cast
      ring
    have hright : (2 : ℚ) ^ j = (2 ^ 62 : ℕ) * 2 ^ (j - 62) := by
      rw [show j = 62 + (j - 62) by ring, zpow_add₀ (by norm_num)]
      norm_num
    have hgap : (2 : ℚ) ^ (j - 54) = (2 ^ 8 : ℕ) * 2 ^ (j - 62) := by
      rw [show j - 54 = 8 + (j - 62) by ring, zpow_add₀ (by norm_num)]
      norm_num
    rw [hleft, hright] at hx
    have hlt : 1000 * (m * 2 ^ d) < 2 ^ 62 := by
      exact_mod_cast lt_of_mul_lt_mul_right hx hunit.le
    rw [hleft, hgap, hright, ← add_mul]
    refine mul_lt_mul_of_pos_right ?_ hunit
    have hsum : 1000 * (m * 2 ^ d) + 2 ^ 8 < 2 ^ 62 := by omega
    exact_mod_cast hsum
  -- A number with a smaller exponent is far below the power.
  · have hunit : (0 : ℚ) < 2 ^ (j - 63) := by positivity
    have hpow : (2 : ℚ) ^ e ≤ 2 ^ (j - 63) := zpow_le_zpow_right₀ (by norm_num) (by omega)
    have hprod : (m : ℚ) * 2 ^ e ≤ 2 ^ 53 * 2 ^ (j - 63) :=
      mul_le_mul (by exact_mod_cast hm.le) hpow (by positivity) (by positivity)
    have hright : (2 : ℚ) ^ j = 2 ^ 63 * 2 ^ (j - 63) := by
      rw [show j = 63 + (j - 63) by ring, zpow_add₀ (by norm_num)]
      norm_num
    have hgap : (2 : ℚ) ^ (j - 54) = 2 ^ 9 * 2 ^ (j - 63) := by
      rw [show j - 54 = 9 + (j - 63) by ring, zpow_add₀ (by norm_num)]
      norm_num
    rw [hright, hgap]
    linarith

/-- Such a product reaches a power of two when it does before it is rounded. -/
theorem FitsSignificand.pow_le_iff (h : FitsSignificand x) (hy : Nearest (1000 * x) y) {j : ℤ}
    (hj : -1021 ≤ j) : 2 ^ j ≤ y ↔ 2 ^ j ≤ 1000 * x := by
  constructor
  · intro hle
    by_contra hlt
    exact absurd hle (not_le.mpr (hy.lt_pow hj (h.thousand_mul_lt (not_le.mp hlt))))
  · exact hy.pow_le (by omega)

end Fraisier.Lib.Json
