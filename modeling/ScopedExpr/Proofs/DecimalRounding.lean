import Mathlib.Algebra.Order.Field.Rat
import Mathlib.Algebra.Order.Field.Power
import Mathlib.Tactic.FieldSimp
import Mathlib.Tactic.Ring
import ScopedExpr.ShortestDecimal

/-!
# Rounding goes by the value

A fraction is rounded to the same magnitude in every form, so what a decimal is read as
depends only on the rational number that it writes. A magnitude that a decimal writes
exactly is read back; with it the shortest decimal of a magnitude is.
-/

namespace ScopedExpr

theorem roundHalfEven_mul_right (num den : Nat) {k : Nat} (h : 0 < k) :
    roundHalfEven (num * k) (den * k) = roundHalfEven num den := by
  have less : den * k < 2 * (num % den * k) ↔ den < 2 * (num % den) := by
    rw [← Nat.mul_assoc]
    exact Nat.mul_lt_mul_right h
  have equal : 2 * (num % den * k) = den * k ↔ 2 * (num % den) = den := by
    rw [← Nat.mul_assoc]
    exact Nat.mul_left_inj h.ne'
  simp only [roundHalfEven, Nat.mul_div_mul_right num den h, Nat.mul_mod_mul_right, less, equal]

namespace Magnitude

theorem nearest?_mul_right (num den : Nat) {k : Nat} (h : 0 < k) :
    nearest? (num * k) (den * k) = nearest? num den := by
  simp only [nearest?, Nat.mul_div_mul_right num den h, Nat.mul_right_comm den k,
    roundHalfEven_mul_right num _ h]

/-- Equal fractions are rounded to the same magnitude. -/
theorem nearest?_congr {a b c d : Nat} (hb : 0 < b) (hd : 0 < d) (same : a * d = c * b) :
    nearest? a b = nearest? c d := by
  rw [← nearest?_mul_right a b hd, same, Nat.mul_comm b d, nearest?_mul_right c d hb]

theorem log2_units (m : Magnitude) : m.units.log2 - 52 = m.scale := by
  have below : m.significand < Nat.pow 2 53 := m.significand_lt
  rcases m.full_or_least with least | full
  · have small : m.units < 2 ^ 53 := by
      rw [units, least]
      exact (Nat.mul_one _).trans_lt below
    rw [least]
    by_cases zero : m.units = 0
    · rw [zero]
      rfl
    · have le := (Nat.log2_lt zero).2 small
      omega
  · have positive := twoPow_pos m.scale
    have low : 2 ^ (52 + m.scale) ≤ m.units := by
      rw [Nat.pow_add]
      exact Nat.mul_le_mul_right _ full
    have high : m.units < 2 ^ (53 + m.scale) := by
      rw [Nat.pow_add]
      exact Nat.mul_lt_mul_of_pos_right below positive
    have nonzero : m.units ≠ 0 := by
      have := Nat.pow_pos (n := 52 + m.scale) (show 0 < 2 by decide)
      omega
    have ge := (Nat.le_log2 nonzero).2 low
    have lt := (Nat.log2_lt nonzero).2 high
    omega

/-- A whole number of units that is a magnitude is rounded to itself. -/
theorem nearest?_units (m : Magnitude) : nearest? m.units 1 = some m := by
  have exact : roundHalfEven m.units (1 * twoPow m.scale) = m.significand := by
    rw [Nat.one_mul, units, roundHalfEven_mul_self _ (twoPow_pos _)]
  have within : m.significand ≠ twoPow 53 := m.significand_lt.ne
  simp only [nearest?, Nat.div_one, log2_units, exact, if_neg within, ofParts?_parts]

end Magnitude

theorem cast_tenPow (e : Nat) : (tenPow e : ℚ) = 10 ^ e := by
  simp [tenPow]

theorem cast_twoPow (e : Nat) : (twoPow e : ℚ) = 2 ^ e := by
  simp [twoPow]

theorem cast_fivePow (e : Nat) : (fivePow e : ℚ) = 5 ^ e := by
  simp [fivePow]

namespace Decimal

def value (x : Decimal) : ℚ := x.significand * 10 ^ x.exponent

theorem five_pow_mul (n : Nat) (q : ℚ) : q * 5 ^ n * 10 ^ (-(n : Int)) * 2 ^ n = q := by
  rw [zpow_neg, zpow_natCast, show (10 : ℚ) = 5 * 2 by norm_num, mul_pow]
  field_simp

theorem fraction_pos (x : Decimal) (scale : Nat) : 0 < (x.fraction scale).2 := by
  unfold fraction
  split
  · exact Nat.one_pos
  · exact tenPow_pos _

theorem fraction_eq (x : Decimal) (scale : Nat) :
    ((x.fraction scale).1 : ℚ) = x.value * scale * (x.fraction scale).2 := by
  unfold fraction value
  split
  · next e is => simp [is, cast_tenPow]
  · next e is =>
    have nonzero : (10 : ℚ) ^ (e + 1) ≠ 0 := pow_ne_zero _ (by norm_num)
    rw [is, zpow_negSucc]
    simp only [Nat.cast_mul, cast_tenPow]
    field_simp

/-- A decimal is read as the magnitude of exactly its value. -/
theorem magnitude?_of_exact {x : Decimal} {m : Magnitude}
    (exact : x.value * Magnitude.unitsPerOne = m.units) : x.magnitude? = some m := by
  have same : (x.fraction Magnitude.unitsPerOne).1 * 1 =
      m.units * (x.fraction Magnitude.unitsPerOne).2 := by
    have cast := x.fraction_eq Magnitude.unitsPerOne
    rw [exact] at cast
    rw [Nat.mul_one]
    exact_mod_cast cast
  rw [← m.nearest?_units]
  exact Magnitude.nearest?_congr (x.fraction_pos _) Nat.one_pos same

/-- Decimals of one value are read as the same magnitude. -/
theorem magnitude?_congr {x y : Decimal} (same : x.value = y.value) :
    x.magnitude? = y.magnitude? := by
  have cross : (x.fraction Magnitude.unitsPerOne).1 * (y.fraction Magnitude.unitsPerOne).2 =
      (y.fraction Magnitude.unitsPerOne).1 * (x.fraction Magnitude.unitsPerOne).2 := by
    have left := x.fraction_eq Magnitude.unitsPerOne
    have right := y.fraction_eq Magnitude.unitsPerOne
    rw [← same] at right
    have both : ((x.fraction Magnitude.unitsPerOne).1 : ℚ) *
        (y.fraction Magnitude.unitsPerOne).2 =
        (y.fraction Magnitude.unitsPerOne).1 * (x.fraction Magnitude.unitsPerOne).2 := by
      rw [left, right]
      ring
    exact_mod_cast both
  exact Magnitude.nearest?_congr (x.fraction_pos _) (y.fraction_pos _) cross

theorem toBinary64_of_magnitude? {x : Decimal} {m : Magnitude} (h : x.magnitude? = some m) :
    x.toBinary64 = .finite false m := by
  have read : Magnitude.nearest? (x.fraction Magnitude.unitsPerOne).1
      (x.fraction Magnitude.unitsPerOne).2 = some m := h
  simp only [toBinary64, Binary64.nearest, read]

theorem value_trim (x : Decimal) : x.trim.value = x.value := by
  fun_induction trim x with
  | case1 x h ih =>
    have whole : x.significand / 10 * 10 = x.significand := Nat.div_mul_cancel
      (Nat.dvd_of_mod_eq_zero h.2)
    have cast : ((x.significand / 10 : Nat) : ℚ) * 10 = x.significand := by
      exact_mod_cast whole
    rw [ih, value, value, zpow_add_one₀ (by norm_num), ← cast]
    ring
  | case2 x h => rfl

end Decimal

namespace Magnitude

theorem value_expansion (m : Magnitude) : m.expansion.value * unitsPerOne = m.units := by
  rw [Decimal.value, expansion, unitsPerOne, Nat.cast_mul, cast_fivePow,
    cast_twoPow]
  exact Decimal.five_pow_mul 1074 m.units

/-- The shortest decimal of a magnitude is read as the magnitude. -/
theorem magnitude?_shortest (tie : TieRule) (m : Magnitude) :
    (m.shortest tie).magnitude? = some m := by
  rw [shortest, Decimal.magnitude?_congr (Decimal.value_trim _)]
  cases found : (List.range 17).findSome? fun (more : Nat) =>
      m.onGrid? tie (m.leadingExponent - more) with
  | none => exact Decimal.magnitude?_of_exact m.value_expansion
  | some x =>
    obtain ⟨more, -, onGrid⟩ := List.exists_of_findSome?_eq_some found
    exact beq_iff_eq.1 (readFrom_of_onGrid? onGrid)

end Magnitude

end ScopedExpr
