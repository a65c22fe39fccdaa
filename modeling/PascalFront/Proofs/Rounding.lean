-- A double and its shortest decimal. Rounding looks at the number that a decimal
-- stands for and not at the way it is written, a finite double is a decimal
-- exactly, and that decimal rounds to the double; so does every candidate that
-- the search for the shortest one accepts.
import PascalFront.Binary64.Shortest
import Mathlib.Algebra.Order.Field.Power
import Mathlib.Algebra.Order.Field.Rat
import Mathlib.Tactic.FieldSimp
import Mathlib.Tactic.Linarith
import Mathlib.Tactic.NormNum
import Mathlib.Tactic.Positivity
import Mathlib.Tactic.Ring

namespace PascalFront

/-- The number that a decimal stands for. -/
def Decimal.value (d : Decimal) : ℚ := d.digits * (10 : ℚ) ^ d.exponent

namespace Binary64

/-! ## Rounding a fraction -/

theorem nearestWhole_mul_left {k : Nat} (hk : 0 < k) (num den : Nat) :
    nearestWhole (k * num) (k * den) = nearestWhole num den := by
  have hless : 2 * (k * (num % den)) < k * den ↔ 2 * (num % den) < den := by
    rw [Nat.mul_left_comm, Nat.mul_lt_mul_left hk]
  have hmore : k * den < 2 * (k * (num % den)) ↔ den < 2 * (num % den) := by
    rw [Nat.mul_left_comm, Nat.mul_lt_mul_left hk]
  simp only [nearestWhole, Nat.mul_div_mul_left _ _ hk, Nat.mul_mod_mul_left, hless, hmore,
    gt_iff_lt]

/-- The nearest whole number is that of the ratio, however its terms are scaled. -/
theorem nearestWhole_ratio {num den num' den' : Nat} (hden : 0 < den) (hden' : 0 < den')
    (h : num * den' = num' * den) : nearestWhole num den = nearestWhole num' den' := by
  rw [← nearestWhole_mul_left hden' num den, ← nearestWhole_mul_left hden num' den',
    Nat.mul_comm den' num,
    Nat.mul_comm den' den, h, Nat.mul_comm num' den]

theorem nearestWhole_whole (n : Nat) {den : Nat} (hden : 0 < den) :
    nearestWhole (n * den) den = n := by
  simp [nearestWhole, Nat.mul_div_cancel _ hden, hden]

/-! ## The unit of a significand -/

theorem den_inUnits (num : Nat) {den : Nat} (hden : 0 < den) (q : Int) :
    0 < (inUnits num den q).2 := by
  unfold inUnits
  split
  · exact hden
  · exact Nat.mul_pos hden (Nat.pow_pos (by decide))

theorem ratio_inUnits (num den : Nat) (q : Int) :
    ((inUnits num den q).1 : ℚ) / (inUnits num den q).2 = (num / den : ℚ) / (2 : ℚ) ^ q := by
  unfold inUnits
  split
  case isTrue hq =>
    obtain ⟨n, hn⟩ := Int.eq_ofNat_of_zero_le (show 0 ≤ -q by omega)
    obtain rfl : q = -(n : Int) := by omega
    simp only [neg_neg, Int.toNat_natCast, Nat.pow_eq, Nat.cast_mul, Nat.cast_pow, Nat.cast_ofNat,
      zpow_neg,
      zpow_natCast]
    field_simp
  case isFalse hq =>
    obtain ⟨n, rfl⟩ := Int.eq_ofNat_of_zero_le (show 0 ≤ q by omega)
    simp only [Int.toNat_natCast, Nat.pow_eq, Nat.cast_mul, Nat.cast_pow, Nat.cast_ofNat,
      zpow_natCast]
    rw [div_div]

/-- In units of `2 ^ q` the number has 53 bits, or fewer when there is no smaller unit. -/
structure IsUnit (q : Int) (r : ℚ) : Prop where
  least : -1074 ≤ q
  above : r < (2 : ℚ) ^ (q + 53)
  below : q = -1074 ∨ (2 : ℚ) ^ (q + 52) ≤ r

theorem IsUnit.le {q q' : Int} {r : ℚ} (h : IsUnit q r) (h' : IsUnit q' r) : q ≤ q' := by
  rcases h.below with rfl | hbelow
  · exact h'.least
  · have hlt : (2 : ℚ) ^ (q + 52) < (2 : ℚ) ^ (q' + 53) := lt_of_le_of_lt hbelow h'.above
    rw [zpow_lt_zpow_iff_right₀ (by norm_num)] at hlt
    omega

theorem IsUnit.eq {q q' : Int} {r : ℚ} (h : IsUnit q r) (h' : IsUnit q' r) : q = q' :=
  le_antisymm (h.le h') (h'.le h)

/-- A fraction lies within a factor of two of the quotient of the leading bits. -/
theorem ratio_between {num den : Nat} (hnum : 0 < num) (hden : 0 < den) :
    (2 : ℚ) ^ ((num.log2 : Int) - den.log2 - 1) ≤ (num / den : ℚ) ∧
      (num / den : ℚ) < (2 : ℚ) ^ ((num.log2 : Int) - den.log2 + 1) := by
  have hdenQ : (0 : ℚ) < den := by exact_mod_cast hden
  have hnumLow : (2 : ℚ) ^ (num.log2 : Int) ≤ num := by
    rw [zpow_natCast]; exact_mod_cast Nat.log2_self_le hnum.ne'
  have hnumHigh : (num : ℚ) < (2 : ℚ) ^ ((num.log2 : Int) + 1) := by
    rw [← Nat.cast_add_one, zpow_natCast]; exact_mod_cast Nat.lt_log2_self
  have hdenLow : (2 : ℚ) ^ (den.log2 : Int) ≤ den := by
    rw [zpow_natCast]; exact_mod_cast Nat.log2_self_le hden.ne'
  have hdenHigh : (den : ℚ) ≤ (2 : ℚ) ^ ((den.log2 : Int) + 1) := by
    rw [← Nat.cast_add_one, zpow_natCast]; exact_mod_cast Nat.lt_log2_self.le
  constructor
  · rw [le_div_iff₀ hdenQ]
    calc (2 : ℚ) ^ ((num.log2 : Int) - den.log2 - 1) * den
        ≤ (2 : ℚ) ^ ((num.log2 : Int) - den.log2 - 1) * (2 : ℚ) ^ ((den.log2 : Int) + 1) := by
          gcongr
      _ = (2 : ℚ) ^ (num.log2 : Int) := by rw [← zpow_add₀ (by norm_num)]; congr 1; ring
      _ ≤ num := hnumLow
  · rw [div_lt_iff₀ hdenQ]
    calc (num : ℚ) < (2 : ℚ) ^ ((num.log2 : Int) + 1) := hnumHigh
      _ = (2 : ℚ) ^ ((num.log2 : Int) - den.log2 + 1) * (2 : ℚ) ^ (den.log2 : Int) := by
          rw [← zpow_add₀ (by norm_num)]; congr 1; ring
      _ ≤ (2 : ℚ) ^ ((num.log2 : Int) - den.log2 + 1) * den := by gcongr

/-- The whole part of a fraction in units of `2 ^ q` has at most 53 bits exactly when the number
is below the unit's bound. -/
theorem fits_iff (num : Nat) {den : Nat} (hden : 0 < den) (q : Int) :
    (inUnits num den q).1 / (inUnits num den q).2 < 2 * exponentWeight ↔
      (num / den : ℚ) < (2 : ℚ) ^ (q + 53) := by
  have hpos := den_inUnits num hden q
  have hposQ : (0 : ℚ) < (inUnits num den q).2 := by exact_mod_cast hpos
  have hweight : ((2 * exponentWeight : Nat) : ℚ) = (2 : ℚ) ^ (53 : Int) := by
    norm_num [exponentWeight]
  calc (inUnits num den q).1 / (inUnits num den q).2 < 2 * exponentWeight
      ↔ (inUnits num den q).1 < 2 * exponentWeight * (inUnits num den q).2 :=
        Nat.div_lt_iff_lt_mul hpos
    _ ↔ ((inUnits num den q).1 : ℚ) / (inUnits num den q).2 < (2 : ℚ) ^ (53 : Int) := by
        rw [div_lt_iff₀ hposQ, ← hweight]; exact_mod_cast Iff.rfl
    _ ↔ (num / den : ℚ) < (2 : ℚ) ^ (q + 53) := by
        rw [ratio_inUnits, div_lt_iff₀ (by positivity), ← zpow_add₀ (by norm_num), add_comm]

theorem isUnit_unitOf {num den : Nat} (hnum : 0 < num) (hden : 0 < den) :
    IsUnit (unitOf num den) (num / den : ℚ) := by
  obtain ⟨hlow, hhigh⟩ := ratio_between hnum hden
  -- the first guess is right or one too small
  obtain ⟨q, hq⟩ : ∃ q, q = max ((num.log2 : Int) - den.log2 - 53) (-1074) := ⟨_, rfl⟩
  have hunit : unitOf num den =
      if (inUnits num den q).1 / (inUnits num den q).2 < 2 * exponentWeight then q else q + 1 := by
    rw [hq]; rfl
  rw [hunit]
  split
  case isTrue hfits =>
    refine ⟨by omega, (fits_iff num hden q).mp hfits, ?_⟩
    rcases eq_or_ne q (-1074) with he | hne
    · exact .inl he
    · refine .inr (le_trans ?_ hlow)
      rw [zpow_le_zpow_iff_right₀ (by norm_num)]
      omega
  case isFalse hfits =>
    rw [fits_iff num hden q, not_lt] at hfits
    refine ⟨by omega, lt_of_lt_of_le hhigh ?_, .inr ?_⟩
    · rw [zpow_le_zpow_iff_right₀ (by norm_num)]
      omega
    · rwa [show q + 1 + 52 = q + 53 by ring]

theorem unitOf_eq {num den : Nat} {q : Int} (hnum : 0 < num) (hden : 0 < den)
    (h : IsUnit q (num / den : ℚ)) : unitOf num den = q :=
  (isUnit_unitOf hnum hden).eq h

/-! ## The magnitude of a fraction -/

theorem magnitudeOf_unit {num den : Nat} {q : Int} (h : unitOf num den = q) :
    magnitudeOf num den = min ((q + 1074).toNat * exponentWeight +
      nearestWhole (inUnits num den q).1 (inUnits num den q).2) infinityBits := by
  subst h
  rfl

theorem magnitudeOf_ratio {num den num' den' : Nat} (hnum : 0 < num) (hden : 0 < den)
    (hnum' : 0 < num') (hden' : 0 < den') (h : (num / den : ℚ) = num' / den') :
    magnitudeOf num den = magnitudeOf num' den' := by
  have hunit : unitOf num den = unitOf num' den' :=
    unitOf_eq hnum hden (h ▸ isUnit_unitOf hnum' hden')
  obtain ⟨q, hq⟩ : ∃ q, q = unitOf num' den' := ⟨_, rfl⟩
  have hpos := den_inUnits num hden q
  have hpos' := den_inUnits num' hden' q
  have hratio : (inUnits num den q).1 * (inUnits num' den' q).2 =
      (inUnits num' den' q).1 * (inUnits num den q).2 := by
    have hdiv : ((inUnits num den q).1 : ℚ) / (inUnits num den q).2 =
        (inUnits num' den' q).1 / (inUnits num' den' q).2 := by
      rw [ratio_inUnits, ratio_inUnits, h]
    rw [div_eq_div_iff (by exact_mod_cast hpos.ne') (by exact_mod_cast hpos'.ne')] at hdiv
    exact_mod_cast hdiv
  rw [magnitudeOf_unit (hunit.trans hq.symm), magnitudeOf_unit hq.symm,
    nearestWhole_ratio hpos hpos' hratio]

/-- The magnitude of a significand at its own unit. -/
theorem magnitudeOf_significand {num den s : Nat} {q : Int} (hnum : 0 < num) (hden : 0 < den)
    (h : (num / den : ℚ) = s * (2 : ℚ) ^ q) (hq : -1074 ≤ q) (hbits : s < 2 * exponentWeight)
    (hfull : q = -1074 ∨ exponentWeight ≤ s) :
    magnitudeOf num den = min ((q + 1074).toNat * exponentWeight + s) infinityBits := by
  have hpos := den_inUnits num hden q
  have hunit : IsUnit q (num / den : ℚ) := by
    refine ⟨hq, ?_, hfull.imp_right fun hfull => ?_⟩
    · have hbitsQ : (s : ℚ) < (2 : ℚ) ^ (53 : Int) := by
        have : (s : ℚ) < ((2 * exponentWeight : Nat) : ℚ) := by exact_mod_cast hbits
        simpa [exponentWeight] using lt_of_lt_of_eq this (by norm_num [exponentWeight])
      rw [h, zpow_add₀ (by norm_num), mul_comm]
      gcongr
    · have hfullQ : (2 : ℚ) ^ (52 : Int) ≤ s := by
        have : ((exponentWeight : Nat) : ℚ) ≤ s := by exact_mod_cast hfull
        simpa [exponentWeight] using le_of_eq_of_le (by norm_num [exponentWeight]) this
      rw [h, zpow_add₀ (by norm_num), mul_comm]
      gcongr
  have hwhole : (inUnits num den q).1 = s * (inUnits num den q).2 := by
    have hratio : ((inUnits num den q).1 : ℚ) / (inUnits num den q).2 = s := by
      rw [ratio_inUnits, h, mul_div_assoc, div_self (by positivity), mul_one]
    rw [div_eq_iff (by exact_mod_cast hpos.ne')] at hratio
    exact_mod_cast hratio
  rw [magnitudeOf_unit (unitOf_eq hnum hden hunit), hwhole, nearestWhole_whole s hpos]

end Binary64

/-! ## Decimals of one value -/

namespace Decimal

variable {d : Decimal}

/-- The power of ten just above a decimal that is not zero. -/
def top (d : Decimal) : Int := d.exponent + digitCount d.digits

theorem value_eq_zero : d.value = 0 ↔ d.digits = 0 := by
  simp [value, zpow_ne_zero]

theorem value_lt_top : d.value < (10 : ℚ) ^ d.top := by
  have hlt : d.digits < 10 ^ digitCount d.digits :=
    (Nat.length_toDigits_le_iff (by decide) (List.length_pos_iff.mpr Nat.toDigits_ne_nil)).mp le_rfl
  have hltQ : (d.digits : ℚ) < (10 : ℚ) ^ (digitCount d.digits : Int) := by
    rw [zpow_natCast]; exact_mod_cast hlt
  rw [value, top, zpow_add₀ (by norm_num), mul_comm]
  gcongr

theorem top_le_value (h : d.digits ≠ 0) : (10 : ℚ) ^ (d.top - 1) ≤ d.value := by
  obtain ⟨n, hn⟩ : ∃ n, digitCount d.digits = n + 1 :=
    ⟨_, (Nat.succ_pred_eq_of_pos (List.length_pos_iff.mpr Nat.toDigits_ne_nil)).symm⟩
  have hle : 10 ^ n ≤ d.digits := by
    rcases Nat.eq_zero_or_pos n with rfl | hpos
    · exact Nat.pos_of_ne_zero h
    · by_contra hlt
      have := (Nat.length_toDigits_le_iff (by decide : 1 < 10) hpos).mpr (Nat.lt_of_not_le hlt)
      have : digitCount d.digits ≤ n := this
      omega
  have hleQ : (10 : ℚ) ^ (n : Int) ≤ d.digits := by rw [zpow_natCast]; exact_mod_cast hle
  rw [value, top, hn,
    show d.exponent + ((n + 1 : Nat) : Int) - 1 = (n : Int) + d.exponent by push_cast; ring,
    zpow_add₀ (by norm_num)]
  gcongr

theorem top_eq {a b : Decimal} (ha : a.digits ≠ 0) (hb : b.digits ≠ 0) (h : a.value = b.value) :
    a.top = b.top := by
  have hle : ∀ {a b : Decimal}, a.digits ≠ 0 → a.value = b.value → a.top ≤ b.top := by
    intro a b ha h
    have hlt := lt_of_le_of_lt (h ▸ top_le_value ha) b.value_lt_top
    rw [zpow_lt_zpow_iff_right₀ (by norm_num)] at hlt
    omega
  exact le_antisymm (hle ha h) (hle hb h.symm)

end Decimal

namespace Binary64

theorem nearest_small {d : Decimal} (negative : Bool) (h : d.digits = 0 ∨ d.top < -325) :
    nearest negative d = ofMagnitude negative 0 :=
  if_pos h

theorem nearest_large {d : Decimal} (negative : Bool) (h : ¬ (d.digits = 0 ∨ d.top < -325))
    (hlarge : 310 < d.top) :
    nearest negative d = infinity negative :=
  (if_neg h).trans (if_pos hlarge)

/-- A decimal of a usual size rounds as the fraction that it is. -/
theorem nearest_fraction (negative : Bool) {d : Decimal} (hd : d.digits ≠ 0) (hlow : -325 ≤ d.top)
    (hhigh : d.top ≤ 310) : ∃ num den : Nat, 0 < num ∧ 0 < den ∧ (num / den : ℚ) = d.value ∧
      nearest negative d = ofMagnitude negative (magnitudeOf num den) := by
  have hten : ∀ n : Nat, 0 < Nat.pow 10 n := fun n => Nat.pow_pos (by decide)
  have husual : nearest negative d =
      if d.exponent < 0 then ofMagnitude negative
        (magnitudeOf d.digits (Nat.pow 10 (-d.exponent).toNat))
      else ofMagnitude negative (magnitudeOf (d.digits * Nat.pow 10 d.exponent.toNat) 1) :=
    (if_neg (not_or.mpr ⟨hd, not_lt.mpr hlow⟩)).trans (if_neg (not_lt.mpr hhigh))
  rw [husual]
  split
  case isTrue hneg =>
    obtain ⟨n, hn⟩ := Int.eq_ofNat_of_zero_le (show 0 ≤ -d.exponent by omega)
    refine ⟨d.digits, _, Nat.pos_of_ne_zero hd, hten _, ?_, rfl⟩
    rw [Decimal.value, show d.exponent = -(n : Int) by omega, neg_neg, Int.toNat_natCast, zpow_neg,
      zpow_natCast, Nat.pow_eq, div_eq_mul_inv]
    push_cast
    rfl
  case isFalse hneg =>
    obtain ⟨n, hn⟩ := Int.eq_ofNat_of_zero_le (show 0 ≤ d.exponent by omega)
    refine ⟨_, 1, Nat.mul_pos (Nat.pos_of_ne_zero hd) (hten _), Nat.one_pos, ?_, rfl⟩
    rw [Decimal.value, hn, Int.toNat_natCast, zpow_natCast, Nat.pow_eq]
    push_cast
    rw [div_one]

/-- Rounding looks at the number alone. -/
theorem nearest_value (negative : Bool) {a b : Decimal} (h : a.value = b.value) :
    nearest negative a = nearest negative b := by
  have hzero : a.digits = 0 ↔ b.digits = 0 := by
    rw [← Decimal.value_eq_zero, h, Decimal.value_eq_zero]
  by_cases ha : a.digits = 0
  · rw [nearest_small negative (.inl ha), nearest_small negative (.inl (hzero.mp ha))]
  have hb := mt hzero.mpr ha
  have htop := Decimal.top_eq ha hb h
  by_cases hlow : a.top < -325
  · rw [nearest_small negative (.inr hlow), nearest_small negative (.inr (htop ▸ hlow))]
  by_cases hhigh : 310 < a.top
  · rw [nearest_large negative (by simp only [ha, hlow, or_self, not_false_eq_true]) hhigh,
      nearest_large negative (by rw [← htop]; simp only [hb, hlow, or_self, not_false_eq_true])
        (htop ▸ hhigh)]
  obtain ⟨num, den, hnum, hden, hvalue, ha'⟩ := nearest_fraction negative ha (by omega) (by omega)
  obtain ⟨num', den', hnum', hden', hvalue', hb'⟩ :=
    nearest_fraction negative hb (by omega) (by omega)
  rw [ha', hb', magnitudeOf_ratio hnum hden hnum' hden' (by rw [hvalue, hvalue', h])]

/-! ## The exact decimal -/

theorem value_exact (x : Binary64) : x.exact.value = x.significand * (2 : ℚ) ^ x.power := by
  unfold exact Decimal.value
  split
  case isTrue hneg =>
    obtain ⟨n, hn⟩ := Int.eq_ofNat_of_zero_le (show 0 ≤ -x.power by omega)
    rw [show x.power = -(n : Int) by omega]
    simp only [neg_neg, Int.toNat_natCast, Nat.pow_eq, Nat.cast_mul, Nat.cast_pow, Nat.cast_ofNat,
      zpow_neg,
      zpow_natCast]
    rw [show (10 : ℚ) = 5 * 2 by norm_num, mul_pow]
    field_simp
  case isFalse hneg =>
    obtain ⟨n, hn⟩ := Int.eq_ofNat_of_zero_le (show 0 ≤ x.power by omega)
    simp [hn]

theorem fractionField_lt (x : Binary64) : x.fractionField < exponentWeight :=
    Nat.mod_lt _ (by decide)

theorem significand_lt (x : Binary64) : x.significand < 2 * exponentWeight := by
  have := x.fractionField_lt
  unfold significand
  split <;> omega

theorem power_bounds {x : Binary64} (hx : x.isFinite = true) : -1074 ≤ x.power ∧ x.power ≤ 971 := by
  simp only [isFinite, decide_eq_true_eq] at hx
  unfold power
  split <;> omega

theorem ofMagnitude_fields (x : Binary64) :
    ofMagnitude x.isNegative (x.exponentField * exponentWeight + x.fractionField) = x := by
  have hlt : x.bits.toNat < 2 * signWeight := x.bits.toNat_lt
  have hsign : x.isNegative = true ↔ signWeight ≤ x.bits.toNat := by
    simp only [isNegative, beq_iff_eq, signWeight] at hlt ⊢
    omega
  have hbits : (if x.isNegative then signWeight else 0) +
      (x.exponentField * exponentWeight + x.fractionField) = x.bits.toNat := by
    have hfields : x.exponentField * exponentWeight + x.fractionField =
        x.bits.toNat % signWeight := by
      simp only [exponentField, fractionField, exponentWeight, signWeight]
      omega
    rw [hfields]
    split
    case isTrue hneg =>
      have := hsign.mp hneg
      simp only [signWeight] at this hlt ⊢
      omega
    case isFalse hneg =>
      have := mt hsign.mpr hneg
      simp only [signWeight] at this hlt ⊢
      omega
  unfold ofMagnitude
  rw [hbits, UInt64.ofNat_toNat]

theorem least_power_bound : (10 : ℚ) ^ (-324 : Int) ≤ (2 : ℚ) ^ (-1074 : Int) := by
  have hpow : (2 : Nat) ^ 1074 ≤ 10 ^ 324 := by decide +kernel
  rw [zpow_neg, zpow_neg]
  refine inv_anti₀ (by positivity) ?_
  exact_mod_cast hpow

theorem greatest_number_bound :
    (2 : ℚ) ^ (53 : Int) * (2 : ℚ) ^ (971 : Int) ≤ (10 : ℚ) ^ (309 : Int) := by
  have hpow : (2 : Nat) ^ 53 * 2 ^ 971 ≤ 10 ^ 309 := by decide +kernel
  exact_mod_cast hpow

theorem digits_exact (x : Binary64) : x.exact.digits = 0 ↔ x.significand = 0 := by
  rw [← Decimal.value_eq_zero, value_exact]
  simp [zpow_ne_zero]

/-- The doubles that are not zero lie between the bounds that rounding asks about. -/
theorem top_exact {x : Binary64} (hx : x.isFinite = true) (hzero : x.significand ≠ 0) :
    -325 ≤ x.exact.top ∧ x.exact.top ≤ 310 := by
  obtain ⟨hleast, hmost⟩ := power_bounds hx
  have hvalue := x.value_exact
  have hone : (1 : ℚ) ≤ x.significand := by exact_mod_cast Nat.one_le_iff_ne_zero.mpr hzero
  have hbits : (x.significand : ℚ) ≤ (2 : ℚ) ^ (53 : Int) := by
    have hlt : (x.significand : ℚ) ≤ ((2 * exponentWeight : Nat) : ℚ) := by
      exact_mod_cast x.significand_lt.le
    exact le_of_le_of_eq hlt (by norm_num [exponentWeight])
  constructor
  · have hlt : (10 : ℚ) ^ (-324 : Int) < (10 : ℚ) ^ x.exact.top := by
      calc (10 : ℚ) ^ (-324 : Int) ≤ (2 : ℚ) ^ (-1074 : Int) := least_power_bound
        _ ≤ (2 : ℚ) ^ x.power := zpow_le_zpow_right₀ (by norm_num) hleast
        _ ≤ x.significand * (2 : ℚ) ^ x.power := le_mul_of_one_le_left (by positivity) hone
        _ < (10 : ℚ) ^ x.exact.top := hvalue ▸ x.exact.value_lt_top
    rw [zpow_lt_zpow_iff_right₀ (by norm_num)] at hlt
    omega
  · have hle : (10 : ℚ) ^ (x.exact.top - 1) ≤ (10 : ℚ) ^ (309 : Int) := by
      calc (10 : ℚ) ^ (x.exact.top - 1) ≤ x.significand * (2 : ℚ) ^ x.power :=
            hvalue ▸ Decimal.top_le_value (mt x.digits_exact.mp hzero)
        _ ≤ (2 : ℚ) ^ (53 : Int) * (2 : ℚ) ^ (971 : Int) :=
            mul_le_mul hbits (zpow_le_zpow_right₀ (by norm_num) hmost) (by positivity)
              (by positivity)
        _ ≤ (10 : ℚ) ^ (309 : Int) := greatest_number_bound
    rw [zpow_le_zpow_iff_right₀ (by norm_num)] at hle
    omega

/-- The exact decimal of a finite double rounds to that double. -/
theorem nearest_exact {x : Binary64} (hx : x.isFinite = true) :
    nearest x.isNegative x.exact = x := by
  have hfraction := x.fractionField_lt
  have hfields := x.ofMagnitude_fields
  by_cases hzero : x.significand = 0
  · have hparts : x.exponentField = 0 ∧ x.fractionField = 0 := by
      simp only [significand, exponentWeight] at hzero
      split at hzero <;> omega
    rw [nearest_small _ (.inl (x.digits_exact.mpr hzero))]
    rwa [hparts.1, hparts.2] at hfields
  obtain ⟨hlow, hhigh⟩ := top_exact hx hzero
  obtain ⟨num, den, hnum, hden, hratio, hnearest⟩ :=
    nearest_fraction x.isNegative (mt x.digits_exact.mp hzero) hlow hhigh
  have hfull : x.power = -1074 ∨ exponentWeight ≤ x.significand := by
    unfold power significand
    split <;> omega
  have hmagnitude := magnitudeOf_significand hnum hden (hratio.trans x.value_exact)
      (power_bounds hx).1
    x.significand_lt hfull
  have hsum : (x.power + 1074).toNat * exponentWeight + x.significand =
      x.exponentField * exponentWeight + x.fractionField := by
    simp only [power, significand, exponentWeight]
    split <;> omega
  have hsmall : x.exponentField * exponentWeight + x.fractionField ≤ infinityBits := by
    have hfield : x.exponentField < 2047 := by simpa [isFinite] using hx
    simp only [infinityBits, exponentWeight] at hfraction ⊢
    omega
  rw [hnearest, hmagnitude, hsum, Nat.min_eq_left hsmall, hfields]

/-! ## The shortest decimal -/

theorem readsBack_neighbour? {tie : Tie} {x : Binary64} {dropped : Nat} {d : Decimal}
    (h : x.neighbour? tie dropped = some d) : x.readsBack d = true := by
  obtain ⟨lower, hlower⟩ : ∃ lower : Decimal,
      lower = ⟨x.exact.digits / Nat.pow 10 dropped, x.exact.exponent + dropped⟩ := ⟨_, rfl⟩
  obtain ⟨upper, hupper⟩ : ∃ upper : Decimal,
      upper = ⟨x.exact.digits / Nat.pow 10 dropped + 1, x.exact.exponent + dropped⟩ := ⟨_, rfl⟩
  delta neighbour? at h
  simp only [← hlower, ← hupper] at h
  cases hl : x.readsBack lower <;> cases hu : x.readsBack upper <;> simp only [hl, hu] at h
  case false.true => cases h; exact hu
  case true.false => cases h; exact hl
  case true.true =>
    have hchosen : d = lower ∨ d = upper := by
      cases tie <;> grind
    rcases hchosen with rfl | rfl
    · exact hl
    · exact hu
  case false.false => cases h

theorem readsBack_shortestFrom (tie : Tie) {x : Binary64} (hx : x.isFinite = true) (dropped : Nat) :
    x.readsBack (x.shortestFrom tie dropped) = true := by
  induction dropped with
  | zero => simp [shortestFrom, readsBack, nearest_exact hx]
  | succ dropped ih =>
    unfold shortestFrom
    cases h : x.neighbour? tie (dropped + 1) with
    | none => exact ih
    | some d => exact readsBack_neighbour? h

/-- The shortest decimal of a finite double reads back as the double. -/
theorem nearest_shortest (tie : Tie) {x : Binary64} (hx : x.isFinite = true) :
    nearest x.isNegative (x.shortest tie) = x := by
  have h := readsBack_shortestFrom tie hx (digitCount x.exact.digits - 1)
  exact beq_iff_eq.mp h

end Binary64

end PascalFront
