import Mathlib.Data.Int.Order.Basic
import Mathlib.Tactic.Ring
import Mathlib.Tactic.Linarith

/-!
# Dividing signed numbers as unsigned ones

A signed dividend and a signed divisor are converted to 64 bits without a sign, divided there, and
the quotient is converted back, to 64 bits or to 32.  The lemmas say when this is the quotient
rounded to zero.
-/

namespace Graphflow.Lib

/-- The quotient after both operands have lost their signs. -/
def unsignedDiv (x d : ℤ) : ℤ := (x % 2 ^ 64) / (d % 2 ^ 64)

def unsignedMod (x d : ℤ) : ℤ := (x % 2 ^ 64) % (d % 2 ^ 64)

/-- When the quotient is right in 32 bits. -/
def ExactIn32 (x d : ℤ) : Prop :=
  0 < d ∧ (0 ≤ x ∨ d ∣ x ∧ d ∣ 2 ^ 32 ∨ d = 2 ^ 32 - 1 ∧ 2 ≤ -x % d) ∨
    d < 0 ∧ (0 ≤ x ∧ x < -d ∨ x = d)

/-- When it is in 64 bits, for a dividend of any size that has been cut to 64 bits. -/
def ExactIn64 (x d : ℤ) : Prop :=
  0 < d ∧ (0 ≤ x ∧ x < 2 ^ 64 ∨ d = 1) ∨ d < 0 ∧ (0 ≤ x ∧ x < -d ∨ x = d)

instance (x d : ℤ) : Decidable (ExactIn32 x d) :=
  inferInstanceAs (Decidable (0 < d ∧ (0 ≤ x ∨ d ∣ x ∧ d ∣ 2 ^ 32 ∨ d = 2 ^ 32 - 1 ∧ 2 ≤ -x % d) ∨
    d < 0 ∧ (0 ≤ x ∧ x < -d ∨ x = d)))

instance (x d : ℤ) : Decidable (ExactIn64 x d) :=
  inferInstanceAs (Decidable (0 < d ∧ (0 ≤ x ∧ x < 2 ^ 64 ∨ d = 1) ∨
    d < 0 ∧ (0 ≤ x ∧ x < -d ∨ x = d)))

variable {x d : ℤ}

/-! ## Cutting to a width -/

theorem bmod32_eq_iff {c v : ℤ} (hmin : -2 ^ 31 ≤ v) (hmax : v < 2 ^ 31) :
    c.bmod (2 ^ 32) = v ↔ (c - v) % 2 ^ 32 = 0 := by
  rw [Int.bmod_def]
  push_cast
  split <;> omega

theorem bmod64_eq_iff {c v : ℤ} (hmin : 0 ≤ c) (hmax : c < 2 ^ 63) :
    c.bmod (2 ^ 64) = v ↔ c = v := by
  rw [Int.bmod_def]
  push_cast
  split <;> omega

/-! ## Rounding to zero -/

theorem tdiv_of_neg_left (hx : x < 0) : x.tdiv d = -(-x / d) ∧ x.tmod d = -(-x % d) := by
  have hpos : 0 ≤ -x := by omega
  constructor
  · rw [← Int.tdiv_eq_ediv_of_nonneg hpos, Int.neg_tdiv, neg_neg]
  · rw [← Int.tmod_eq_emod_of_nonneg hpos, Int.neg_tmod, neg_neg]

/-! ## Negative divisors -/

/-- A negative divisor becomes more than a half of all numbers. -/
theorem unsignedDiv_of_neg (hd : d < 0) (hmin : -2 ^ 63 ≤ d) :
    unsignedDiv x d = (if 2 ^ 64 + d ≤ x % 2 ^ 64 then 1 else 0) ∧
      unsignedMod x d = if 2 ^ 64 + d ≤ x % 2 ^ 64 then x % 2 ^ 64 - (2 ^ 64 + d)
        else x % 2 ^ 64 := by
  have hdivisor : d % 2 ^ 64 = 2 ^ 64 + d := by omega
  have hpos : 0 < 2 ^ 64 + d := by omega
  rw [unsignedDiv, unsignedMod, hdivisor, Int.ediv_emod_unique hpos]
  by_cases hone : 2 ^ 64 + d ≤ x % 2 ^ 64
  · rw [if_pos hone, if_pos hone]
    omega
  · rw [if_neg hone, if_neg hone]
    omega

/-- With a quotient of zero or one, only small dividends and the divisor itself are divided
rightly. -/
theorem unsignedDiv_eq_tdiv_iff_of_neg (hd : d < 0) (hmin : -2 ^ 63 ≤ d) :
    unsignedDiv x d = x.tdiv d ↔ 0 ≤ x ∧ x < -d ∨ x = d := by
  rw [(unsignedDiv_of_neg hd hmin).1]
  obtain ⟨e, rfl⟩ : ∃ e, d = -e := ⟨-d, (neg_neg d).symm⟩
  rw [Int.tdiv_neg, neg_neg]
  have he : 0 < e := by omega
  by_cases hx : 0 ≤ x
  · rw [Int.tdiv_eq_ediv_of_nonneg hx]
    by_cases hlt : x < e
    · rw [Int.ediv_eq_zero_of_lt hx hlt, if_neg (by omega)]
      omega
    · have hquot : 1 ≤ x / e := Int.le_ediv_of_mul_le he (by omega)
      split <;> omega
  · have hneg : x < 0 := by omega
    rw [(tdiv_of_neg_left hneg).1, neg_neg]
    rcases lt_trichotomy (-x) e with hlt | heq | hgt
    · rw [Int.ediv_eq_zero_of_lt (by omega) hlt, if_pos (by omega)]
      omega
    · rw [heq, Int.ediv_self he.ne', if_pos (by omega)]
      omega
    · have hquot : 1 ≤ -x / e := Int.le_ediv_of_mul_le he (by omega)
      by_cases htwo : -x < 2 * e
      · rw [if_neg (by omega)]
        omega
      · have hquot₂ : 2 ≤ -x / e := Int.le_ediv_of_mul_le he (by omega)
        split <;> omega

/-! ## Positive divisors -/

theorem unsignedDiv_of_pos (hd : 0 < d) (hmax : d < 2 ^ 63) :
    unsignedDiv x d = x % 2 ^ 64 / d ∧ unsignedMod x d = x % 2 ^ 64 % d := by
  have hdivisor : d % 2 ^ 64 = d := by omega
  rw [unsignedDiv, unsignedMod, hdivisor]
  exact ⟨rfl, rfl⟩

/-- Dividing `2 ^ 64` more than a negative dividend. -/
theorem add_ediv_emod (hd : 0 < d) (m y : ℤ) :
    (m - y) / d = (if y % d ≤ m % d then m / d - y / d else m / d - y / d - 1) ∧
      (m - y) % d = if y % d ≤ m % d then m % d - y % d else m % d - y % d + d := by
  have hm := Int.emod_add_mul_ediv m d
  have hy := Int.emod_add_mul_ediv y d
  have hm₀ := Int.emod_nonneg m hd.ne'
  have hm₁ := Int.emod_lt_of_pos m hd
  have hy₀ := Int.emod_nonneg y hd.ne'
  have hy₁ := Int.emod_lt_of_pos y hd
  rw [Int.ediv_emod_unique hd]
  by_cases hle : y % d ≤ m % d
  · rw [if_pos hle, if_pos hle]
    refine ⟨?_, by omega, by omega⟩
    rw [mul_sub]
    omega
  · rw [if_neg hle, if_neg hle]
    refine ⟨?_, by omega, by omega⟩
    rw [mul_sub, mul_sub, mul_one]
    omega

/-- The powers of two are the divisors whose quotient vanishes in 32 bits. -/
theorem two_pow_ediv_emod_eq_zero_iff (hd : 0 < d) (hmax : d < 2 ^ 63) :
    2 ^ 64 / d % 2 ^ 32 = 0 ↔ d ∣ 2 ^ 32 := by
  constructor
  · intro hzero
    obtain ⟨t, ht⟩ := Int.dvd_of_emod_eq_zero hzero
    have hdiv := Int.emod_add_mul_ediv (2 ^ 64) d
    have hmod₀ := Int.emod_nonneg (2 ^ 64) hd.ne'
    have hmod₁ := Int.emod_lt_of_pos (2 ^ 64) hd
    obtain ⟨b, hb⟩ : ∃ b, b = 2 ^ 64 % d := ⟨_, rfl⟩
    obtain ⟨u, hu⟩ : ∃ u, u = d * t := ⟨_, rfl⟩
    have hprod : d * (2 ^ 32 * t) = 2 ^ 32 * u := by
      rw [hu]
      ring
    rw [ht, ← hb, hprod] at hdiv
    rw [← hb] at hmod₀ hmod₁
    have htpos : 0 < t := by
      by_contra hle
      have hule : u ≤ 0 := hu ▸ Int.mul_nonpos_of_nonneg_of_nonpos hd.le (by omega)
      omega
    have hdu : d ≤ u := hu ▸ le_mul_of_one_le_right hd.le htpos
    -- The remainder is a multiple of `2 ^ 32` below it.
    exact ⟨t, by omega⟩
  · rintro ⟨t, ht⟩
    have hsquare : (2 : ℤ) ^ 64 = d * (2 ^ 32 * t) := by
      rw [show (2 : ℤ) ^ 64 = 2 ^ 32 * 2 ^ 32 by rfl]
      conv_lhs => rw [ht]
      rw [ht]
      ring
    rw [hsquare, Int.mul_ediv_cancel_left _ hd.ne', Int.mul_emod_right]

theorem two_pow_emod_of_dvd (hdvd : d ∣ 2 ^ 32) : (2 : ℤ) ^ 64 % d = 0 :=
  Int.emod_eq_zero_of_dvd (hdvd.trans ⟨2 ^ 32, rfl⟩)

/-- Only `2 ^ 32 - 1` leaves a one there, if a larger remainder is possible. -/
theorem eq_of_two_pow_ediv_emod_eq_one (hd : 0 < d) (hmax : d < 2 ^ 63)
    (hone : 2 ^ 64 / d % 2 ^ 32 = 1) (hlt : 2 ^ 64 % d + 1 < d) : d = 2 ^ 32 - 1 := by
  have hdiv := Int.emod_add_mul_ediv (2 ^ 64) d
  have hmod₀ := Int.emod_nonneg (2 ^ 64) hd.ne'
  obtain ⟨b, hb⟩ : ∃ b, b = 2 ^ 64 % d := ⟨_, rfl⟩
  obtain ⟨t, ht⟩ : ∃ t, 2 ^ 64 / d = 2 ^ 32 * t + 1 := ⟨2 ^ 64 / d / 2 ^ 32, by omega⟩
  obtain ⟨u, hu⟩ : ∃ u, u = d * t := ⟨_, rfl⟩
  have hprod : d * (2 ^ 32 * t + 1) = 2 ^ 32 * u + d := by
    rw [hu]
    ring
  rw [ht, ← hb, hprod] at hdiv
  rw [← hb] at hmod₀ hlt
  have htpos : 0 < t := by
    by_contra hle
    have hule : u ≤ 0 := hu ▸ Int.mul_nonpos_of_nonneg_of_nonpos hd.le (by omega)
    omega
  have hdu : d ≤ u := hu ▸ le_mul_of_one_le_right hd.le htpos
  -- The divisor and the remainder make up `2 ^ 32`.
  have hue : u = 2 ^ 32 - 1 := by omega
  have hhalf : 2 ^ 31 < d := by omega
  have htone : t = 1 := by
    by_contra hne
    have htwo : d * 2 ≤ u := hu ▸ Int.mul_le_mul_of_nonneg_left (by omega) hd.le
    omega
  rw [htone, mul_one] at hu
  omega

/-! ## When the quotient is right -/

theorem exactIn32_iff (hd : d ≠ 0) (hmin : -2 ^ 63 ≤ d) (hmax : d < 2 ^ 63) (hx : -2 ^ 63 ≤ x)
    (hx' : x < 2 ^ 63) (hfits : 0 < d → -2 ^ 31 ≤ x.tdiv d ∧ x.tdiv d < 2 ^ 31) :
    (unsignedDiv x d).bmod (2 ^ 32) = x.tdiv d ↔ ExactIn32 x d := by
  rcases lt_or_gt_of_ne hd with hneg | hpos
  · have hexact := @unsignedDiv_eq_tdiv_iff_of_neg x d hneg hmin
    have hsmall : (unsignedDiv x d).bmod (2 ^ 32) = unsignedDiv x d := by
      rw [(unsignedDiv_of_neg hneg hmin).1]
      split <;> rfl
    rw [hsmall, hexact, ExactIn32]
    omega
  · obtain ⟨hlow, hhigh⟩ := hfits hpos
    rw [bmod32_eq_iff hlow hhigh, (unsignedDiv_of_pos hpos hmax).1, ExactIn32]
    by_cases hnonneg : 0 ≤ x
    · rw [Int.tdiv_eq_ediv_of_nonneg hnonneg, Int.emod_eq_of_lt hnonneg (by omega)]
      omega
    · have hneg : x < 0 := by omega
      have hcut : x % 2 ^ 64 = 2 ^ 64 - -x := by omega
      rw [(tdiv_of_neg_left hneg).1, hcut, (add_ediv_emod hpos _ _).1]
      have hmod₀ := Int.emod_nonneg (-x) hpos.ne'
      have hmod₁ := Int.emod_lt_of_pos (-x) hpos
      have hpow₀ := Int.emod_nonneg (2 ^ 64) hpos.ne'
      have hdvd : d ∣ x ↔ -x % d = 0 := by
        rw [← Int.dvd_iff_emod_eq_zero, Int.dvd_neg]
      have hlarge : d = 2 ^ 32 - 1 → (2 : ℤ) ^ 64 / d = 2 ^ 32 + 1 ∧ (2 : ℤ) ^ 64 % d = 1 := by
        rintro rfl
        decide
      have hleft : ((if -x % d ≤ 2 ^ 64 % d then 2 ^ 64 / d - -x / d else 2 ^ 64 / d - -x / d - 1) -
            -(-x / d)) % 2 ^ 32 = 0 ↔
          -x % d ≤ 2 ^ 64 % d ∧ 2 ^ 64 / d % 2 ^ 32 = 0 ∨
            2 ^ 64 % d < -x % d ∧ 2 ^ 64 / d % 2 ^ 32 = 1 := by
        split <;> omega
      rw [hleft, two_pow_ediv_emod_eq_zero_iff hpos hmax]
      constructor
      · rintro (⟨hle, hpow⟩ | ⟨hlt, hone⟩)
        · rw [two_pow_emod_of_dvd hpow] at hle
          exact .inl ⟨hpos, .inr (.inl ⟨hdvd.mpr (by omega), hpow⟩)⟩
        · have hd₃₂ := eq_of_two_pow_ediv_emod_eq_one hpos hmax hone (by omega)
          have hb := (hlarge hd₃₂).2
          exact .inl ⟨hpos, .inr (.inr ⟨hd₃₂, by omega⟩)⟩
      · rintro (⟨-, h | ⟨hx₀, hpow⟩ | ⟨hd₃₂, htwo⟩⟩ | ⟨h, -⟩)
        · exact absurd h hnonneg
        · rw [two_pow_emod_of_dvd hpow]
          exact .inl ⟨(hdvd.mp hx₀).le, hpow⟩
        · obtain ⟨ha, hb⟩ := hlarge hd₃₂
          rw [ha, hb]
          exact .inr ⟨by omega, by decide⟩
        · exact absurd h hpos.not_gt

/-- Where the quotient is right, so is the remainder in 32 bits. -/
theorem unsignedMod_bmod_eq (hmin : -2 ^ 63 ≤ d) (hmax : d < 2 ^ 63) (hx : -2 ^ 63 ≤ x)
    (hx' : x < 2 ^ 63) (h : ExactIn32 x d) :
    (unsignedMod x d).bmod (2 ^ 32) = (x.tmod d).bmod (2 ^ 32) := by
  rcases h with ⟨hpos, h⟩ | ⟨hneg, h⟩
  · rw [(unsignedDiv_of_pos hpos hmax).2]
    by_cases hnonneg : 0 ≤ x
    · rw [Int.tmod_eq_emod_of_nonneg hnonneg, Int.emod_eq_of_lt hnonneg (by omega)]
    · have hcut : x % 2 ^ 64 = 2 ^ 64 - -x := by omega
      rw [(tdiv_of_neg_left (by omega)).2, hcut, (add_ediv_emod hpos _ _).2]
      rcases h with h | ⟨hdvd, hpow⟩ | ⟨hd₃₂, htwo⟩
      · exact absurd h hnonneg
      · have hzero : -x % d = 0 := Int.emod_eq_zero_of_dvd (Int.dvd_neg.mpr hdvd)
        rw [two_pow_emod_of_dvd hpow, hzero]
        rfl
      · have hb : (2 : ℤ) ^ 64 % d = 1 := by
          rw [hd₃₂]
          decide
        rw [hb, if_neg (by omega)]
        have hsum : 1 - -x % d + d = -(-x % d) + 2 ^ 32 := by omega
        rw [hsum]
        exact Int.add_bmod_right ..
  · rw [(unsignedDiv_of_neg hneg hmin).2]
    rcases h with ⟨hnonneg, hlt⟩ | rfl
    · have habs : x.tmod d = x := by
        obtain ⟨e, rfl⟩ : ∃ e, d = -e := ⟨-d, (neg_neg d).symm⟩
        rw [Int.tmod_neg, Int.tmod_eq_of_lt hnonneg (by omega)]
      rw [if_neg (by omega), Int.emod_eq_of_lt hnonneg (by omega), habs]
    · have hself : x.tmod x = 0 := Int.tmod_self
      have hcut : x % 2 ^ 64 = 2 ^ 64 + x := by omega
      rw [if_pos (by omega), hself, hcut, sub_self]

theorem exactIn64_iff (hd : d ≠ 0) (hmin : -2 ^ 63 ≤ d) (hmax : d < 2 ^ 63)
    (hx : d = 1 → -2 ^ 63 ≤ x ∧ x < 2 ^ 63) :
    (unsignedDiv x d).bmod (2 ^ 64) = x.tdiv d ↔ ExactIn64 x d := by
  rcases lt_or_gt_of_ne hd with hneg | hpos
  · have hexact := @unsignedDiv_eq_tdiv_iff_of_neg x d hneg hmin
    have hsmall : (unsignedDiv x d).bmod (2 ^ 64) = unsignedDiv x d := by
      rw [(unsignedDiv_of_neg hneg hmin).1]
      split <;> rfl
    rw [hsmall, hexact, ExactIn64]
    omega
  · rw [(unsignedDiv_of_pos hpos hmax).1]
    by_cases hone : d = 1
    · obtain ⟨hlow, hhigh⟩ := hx hone
      have hcut : (x % 2 ^ 64).bmod (2 ^ 64) = x := by
        rw [Int.bmod_def]
        push_cast
        split <;> omega
      rw [hone, Int.ediv_one, Int.tdiv_one]
      exact iff_of_true hcut (.inl ⟨Int.one_pos, .inr rfl⟩)
    · have hcut₀ := Int.emod_nonneg x (show (2 : ℤ) ^ 64 ≠ 0 by decide)
      have hcut₁ := Int.emod_lt_of_pos x (show (0 : ℤ) < 2 ^ 64 by decide)
      have hquot₀ : 0 ≤ x % 2 ^ 64 / d := Int.ediv_nonneg hcut₀ hpos.le
      have hquot₁ : x % 2 ^ 64 / d < 2 ^ 63 := by
        apply Int.ediv_lt_of_lt_mul hpos
        omega
      rw [bmod64_eq_iff hquot₀ hquot₁, ExactIn64]
      by_cases hnonneg : 0 ≤ x
      · rw [Int.tdiv_eq_ediv_of_nonneg hnonneg]
        by_cases hlt : x < 2 ^ 64
        · rw [Int.emod_eq_of_lt hnonneg hlt]
          omega
        · have hmore : x % 2 ^ 64 / d < x / d := by
            have hnext := Int.add_mul_ediv_right (x % 2 ^ 64) 1 hpos.ne'
            have hle : (x % 2 ^ 64 + 1 * d) / d ≤ x / d := Int.ediv_le_ediv hpos (by omega)
            omega
          omega
      · -- The quotient would be zero, but a negative dividend becomes larger than the divisor.
        have hne : x % 2 ^ 64 / d ≠ x.tdiv d := by
          rw [(tdiv_of_neg_left (by omega)).1]
          intro heq
          have hquot := Int.ediv_nonneg (by omega : 0 ≤ -x) hpos.le
          have hlt : -x < d := by
            by_contra hge
            have hone' : 1 ≤ -x / d := Int.le_ediv_of_mul_le hpos (by omega)
            omega
          have hone' : 1 ≤ x % 2 ^ 64 / d := Int.le_ediv_of_mul_le hpos (by omega)
          omega
        omega

/-- No dividend that has been cut to 64 bits gives the quotient of one that is far too large. -/
theorem unsignedDiv_bmod_ne (hd : d ≠ 0) (hone : d ≠ 1) (hmin : -2 ^ 63 ≤ d) (hmax : d < 2 ^ 63)
    (hx : x ≤ -2 ^ 65 ∨ 2 ^ 65 ≤ x) (y : ℤ) : (unsignedDiv y d).bmod (2 ^ 64) ≠ x.tdiv d := by
  rcases lt_or_gt_of_ne hd with hneg | hpos
  · have hsmall : (unsignedDiv y d).bmod (2 ^ 64) = 0 ∨ (unsignedDiv y d).bmod (2 ^ 64) = 1 := by
      rw [(unsignedDiv_of_neg hneg hmin).1]
      split
      · exact .inr rfl
      · exact .inl rfl
    obtain ⟨e, rfl⟩ : ∃ e, d = -e := ⟨-d, (neg_neg d).symm⟩
    have he : 0 < e := by omega
    rw [Int.tdiv_neg]
    rcases hx with hx | hx
    · have hquot : 2 ≤ -x / e := Int.le_ediv_of_mul_le he (by omega)
      rw [(tdiv_of_neg_left (by omega)).1, neg_neg]
      omega
    · have hquot : 1 ≤ x / e := Int.le_ediv_of_mul_le he (by omega)
      rw [Int.tdiv_eq_ediv_of_nonneg (by omega)]
      omega
  · have hcut₀ := Int.emod_nonneg y (show (2 : ℤ) ^ 64 ≠ 0 by decide)
    have hcut₁ := Int.emod_lt_of_pos y (show (0 : ℤ) < 2 ^ 64 by decide)
    have hquot₀ : 0 ≤ y % 2 ^ 64 / d := Int.ediv_nonneg hcut₀ hpos.le
    have hquot₁ : y % 2 ^ 64 / d < 2 ^ 63 := by
      apply Int.ediv_lt_of_lt_mul hpos
      omega
    rw [(unsignedDiv_of_pos hpos hmax).1, Ne, bmod64_eq_iff hquot₀ hquot₁]
    rcases hx with hx | hx
    · have hquot : 1 ≤ -x / d := Int.le_ediv_of_mul_le hpos (by omega)
      rw [(tdiv_of_neg_left (by omega)).1]
      omega
    · have hnext := Int.add_mul_ediv_right (y % 2 ^ 64) 1 hpos.ne'
      have hle : (y % 2 ^ 64 + 1 * d) / d ≤ x / d := Int.ediv_le_ediv hpos (by omega)
      rw [Int.tdiv_eq_ediv_of_nonneg (by omega)]
      omega

theorem unsignedDiv_congr {y : ℤ} (h : x % 2 ^ 64 = y % 2 ^ 64) (d : ℤ) :
    unsignedDiv x d = unsignedDiv y d ∧ unsignedMod x d = unsignedMod y d := by
  rw [unsignedDiv, unsignedDiv, unsignedMod, unsignedMod, h]
  exact ⟨rfl, rfl⟩

end Graphflow.Lib
