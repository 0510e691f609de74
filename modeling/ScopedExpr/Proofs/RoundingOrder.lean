import ScopedExpr.Proofs.DecimalRounding

/-!
# Rounding keeps the order

A whole number of units is rounded to a multiple of its last place. Rounding never
exchanges two numbers, it leaves the units of a magnitude as they are, and what it takes past
the largest magnitude is an infinity. So the place of a rounded integer in the order is a
monotone function of the integer.
-/

namespace ScopedExpr

theorem roundHalfEven_mono {a b : Nat} (den : Nat) (h : a ≤ b) :
    roundHalfEven a den ≤ roundHalfEven b den := by
  rcases Nat.eq_or_lt_of_le (Nat.div_le_div_right (c := den) h) with same | less
  · have remainders : a % den ≤ b % den := by
      have left := Nat.div_add_mod a den
      have right := Nat.div_add_mod b den
      rw [same] at left
      omega
    simp only [roundHalfEven, same]
    split <;> split <;> omega
  · have left := roundHalfEven_mem a den
    have right := roundHalfEven_mem b den
    omega

theorem twoPow_add (a b : Nat) : twoPow (a + b) = twoPow a * twoPow b := Nat.pow_add 2 a b

theorem log2_twoPow (n : Nat) : (twoPow n).log2 = n := Nat.log2_two_pow

theorem twoPow_le_twoPow {a b : Nat} (h : a ≤ b) : twoPow a ≤ twoPow b :=
  Nat.pow_le_pow_right Nat.two_pos h

theorem twoPow_lt_twoPow {a b : Nat} (h : a < b) : twoPow a < twoPow b :=
  Nat.pow_lt_pow_right Nat.one_lt_two h

namespace Magnitude

theorem unitsPerOne_pos : 0 < unitsPerOne := twoPow_pos 1074

/-- Units rounded to a multiple of the place that keeps 53 bits. -/
def roundedUnits (units : Nat) : Nat :=
  roundHalfEven units (twoPow (units.log2 - 52)) * twoPow (units.log2 - 52)

section Bounds

variable {u scale : Nat}

theorem significand_le (is : u.log2 - 52 = scale) : roundHalfEven u (twoPow scale) ≤ twoPow 53 := by
  have below : u < twoPow (53 + scale) := by
    refine Nat.lt_of_lt_of_le Nat.lt_log2_self (twoPow_le_twoPow ?_)
    omega
  have quotient : u / twoPow scale < twoPow 53 :=
    Nat.div_lt_of_lt_mul (by rwa [Nat.mul_comm, ← twoPow_add])
  have near := roundHalfEven_mem u (twoPow scale)
  omega

/-- With a last place beyond the least there are 53 bits. -/
theorem le_of_scale_pos (is : u.log2 - 52 = scale) (full : 0 < scale) :
    twoPow (52 + scale) ≤ u := by
  have nonzero : u ≠ 0 := by
    rintro rfl
    rw [Nat.log2_zero] at is
    omega
  exact Nat.le_trans (twoPow_le_twoPow (by omega)) (Nat.log2_self_le nonzero)

theorem le_significand (is : u.log2 - 52 = scale) (full : 0 < scale) :
    twoPow 52 ≤ roundHalfEven u (twoPow scale) := by
  have above := le_of_scale_pos is full
  have quotient : twoPow 52 ≤ u / twoPow scale :=
    (Nat.le_div_iff_mul_le (twoPow_pos scale)).2 (by rwa [← twoPow_add])
  have near := roundHalfEven_mem u (twoPow scale)
  omega

theorem roundedUnits_le (is : u.log2 - 52 = scale) : roundedUnits u ≤ twoPow (53 + scale) := by
  rw [roundedUnits, is, twoPow_add]
  exact Nat.mul_le_mul_right _ (significand_le is)

theorem le_roundedUnits (is : u.log2 - 52 = scale) (full : 0 < scale) :
    twoPow (52 + scale) ≤ roundedUnits u := by
  rw [roundedUnits, is, twoPow_add]
  exact Nat.mul_le_mul_right _ (le_significand is full)

end Bounds

theorem log2_mono {a b : Nat} (h : a ≤ b) : a.log2 ≤ b.log2 := by
  rcases Nat.eq_zero_or_pos a with rfl | positive
  · rw [Nat.log2_zero]
    exact Nat.zero_le _
  · have nonzero : b ≠ 0 := by omega
    exact (Nat.le_log2 nonzero).2 (Nat.le_trans (Nat.log2_self_le positive.ne') h)

theorem roundedUnits_mono {a b : Nat} (h : a ≤ b) : roundedUnits a ≤ roundedUnits b := by
  have scales : a.log2 - 52 ≤ b.log2 - 52 := Nat.sub_le_sub_right (log2_mono h) 52
  rcases Nat.eq_or_lt_of_le scales with same | less
  · rw [roundedUnits, roundedUnits, same]
    exact Nat.mul_le_mul_right _ (roundHalfEven_mono _ h)
  · -- a power of two lies between the numbers, and each is rounded on its own side of it
    calc roundedUnits a ≤ twoPow (53 + (a.log2 - 52)) := roundedUnits_le rfl
      _ ≤ twoPow (52 + (b.log2 - 52)) := twoPow_le_twoPow (by omega)
      _ ≤ roundedUnits b := le_roundedUnits rfl (Nat.zero_lt_of_lt less)

theorem units_lt_of_scale (m : Magnitude) : m.units < twoPow (53 + m.scale) := by
  rw [twoPow_add]
  exact Nat.mul_lt_mul_of_pos_right m.significand_lt (twoPow_pos _)

theorem units_lt (m : Magnitude) : m.units < twoPow 2098 := by
  have within := m.scale_le
  exact Nat.lt_of_lt_of_le m.units_lt_of_scale (twoPow_le_twoPow (by omega))

/-- Rounded units are those of the nearest magnitude, unless they are past all magnitudes. -/
theorem cases_of_nearest? (u : Nat) :
    (∃ m, nearest? u 1 = some m ∧ m.units = roundedUnits u) ∨
      nearest? u 1 = none ∧ twoPow 2098 ≤ roundedUnits u := by
  generalize is : u.log2 - 52 = scale
  have low := significand_le is
  have nearest : nearest? u 1 = if roundHalfEven u (twoPow scale) = twoPow 53 then
      ofParts? (twoPow 52) (scale + 1) else ofParts? (roundHalfEven u (twoPow scale)) scale := by
    simp only [nearest?, Nat.div_one, Nat.one_mul, is]
  rw [nearest, roundedUnits, is]
  split
  case isTrue carried =>
    rw [carried, ← twoPow_add]
    rcases Nat.lt_or_ge scale 2045 with within | beyond
    · left
      refine ⟨⟨twoPow 52, scale + 1, by decide, within, .inr (Nat.le_refl _)⟩, ?_, ?_⟩
      · exact ofParts?_parts ⟨twoPow 52, scale + 1, by decide, within, .inr (Nat.le_refl _)⟩
      · exact (twoPow_add 52 (scale + 1)).symm.trans (congrArg twoPow (by omega))
    · right
      refine ⟨dif_neg fun h => ?_, twoPow_le_twoPow (by omega)⟩
      exact absurd h.2.1 (by omega)
  case isFalse short =>
    have full : scale = 0 ∨ twoPow 52 ≤ roundHalfEven u (twoPow scale) := by
      rcases Nat.eq_zero_or_pos scale with least | positive
      · exact .inl least
      · exact .inr (le_significand is positive)
    rcases Nat.lt_or_ge 2045 scale with beyond | within
    · right
      refine ⟨dif_neg fun h => absurd h.2.1 (by omega), ?_⟩
      calc twoPow 2098 ≤ twoPow (52 + scale) := twoPow_le_twoPow (by omega)
        _ = twoPow 52 * twoPow scale := twoPow_add _ _
        _ ≤ roundHalfEven u (twoPow scale) * twoPow scale :=
          Nat.mul_le_mul_right _ (le_significand is (by omega))
    · left
      have short : roundHalfEven u (twoPow scale) < twoPow 53 := Nat.lt_of_le_of_ne low short
      exact ⟨⟨_, scale, short, within, full⟩, dif_pos ⟨short, within, full⟩, rfl⟩

@[simp] theorem roundedUnits_units (m : Magnitude) : roundedUnits m.units = m.units := by
  obtain ⟨n, nearest, rounded⟩ | ⟨none, -⟩ := cases_of_nearest? m.units
  · rw [← rounded, ← Option.some.inj (m.nearest?_units.symm.trans nearest)]
  · cases none.symm.trans m.nearest?_units

end Magnitude

namespace Binary64

/-- Where rounding puts a signed number of units in the order of the numbers. -/
def roundedPlace (z : Int) : Int :=
  signed (z < 0) (min (Magnitude.roundedUnits z.natAbs) (twoPow 2098))

theorem rank?_nearest (negative : Bool) (u : Nat) :
    (nearest negative u 1).rank? =
      some (signed negative (min (Magnitude.roundedUnits u) (twoPow 2098))) := by
  obtain ⟨m, near, rounded⟩ | ⟨none, beyond⟩ := Magnitude.cases_of_nearest? u
  · rw [nearest, near, ← rounded, Nat.min_eq_left m.units_lt.le]
    rfl
  · rw [nearest, none, Nat.min_eq_right beyond]
    rfl

theorem roundedPlace_mono {a b : Int} (h : a ≤ b) : roundedPlace a ≤ roundedPlace b := by
  have rounds {m n : Nat} (le : m ≤ n) : min (Magnitude.roundedUnits m) (twoPow 2098) ≤
      min (Magnitude.roundedUnits n) (twoPow 2098) := by
    have mono := Magnitude.roundedUnits_mono le
    omega
  rcases Int.lt_or_le a 0 with negative | positive
  · rcases Int.lt_or_le b 0 with both | above
    · have le := rounds (m := b.natAbs) (n := a.natAbs) (by omega)
      simp only [roundedPlace, signed, negative, both, decide_true, if_true]
      omega
    · have notBelow : ¬ b < 0 := by omega
      simp only [roundedPlace, signed, negative, notBelow, decide_true, decide_false, if_true,
        Bool.false_eq_true, if_false]
      omega
  · have le := rounds (m := a.natAbs) (n := b.natAbs) (by omega)
    have notBelow : ¬ a < 0 := by omega
    have notBelow' : ¬ b < 0 := by omega
    simp only [roundedPlace, signed, notBelow, notBelow', decide_false, Bool.false_eq_true,
      if_false]
    omega

/-- Numbers stay where they are. -/
theorem roundedPlace_rank? {x : Binary64} {z : Int} (h : x.rank? = some z) :
    roundedPlace z = z := by
  have fixed (negative : Bool) {u : Nat}
      (same : min (Magnitude.roundedUnits u) (twoPow 2098) = u) :
      roundedPlace (signed negative u) = signed negative u := by
    cases negative with
    | false => simp [roundedPlace, signed, same]
    | true => simp [roundedPlace, signed, same]
  cases x with
  | nan => cases h
  | infinite negative =>
    cases h
    have place : (twoPow 2098).log2 - 52 = 2046 := by rw [log2_twoPow]
    have above := Magnitude.le_roundedUnits place (by decide)
    exact fixed negative (Nat.min_eq_right above)
  | finite negative m =>
    cases h
    refine fixed negative ?_
    rw [Magnitude.roundedUnits_units, Nat.min_eq_left m.units_lt.le]

theorem unitsPerOne_pos : (0 : Int) < Magnitude.unitsPerOne :=
  Int.natCast_pos.2 Magnitude.unitsPerOne_pos

theorem rank?_ofInt (n : Int) :
    (ofInt n).rank? = some (roundedPlace (n * Magnitude.unitsPerOne)) := by
  have sign : n * Magnitude.unitsPerOne < 0 ↔ n < 0 := by
    rw [← Int.not_le, ← Int.not_le, Int.mul_nonneg_iff_of_pos_right unitsPerOne_pos]
  rw [ofInt, rank?_nearest, roundedPlace, Int.natAbs_mul, Int.natAbs_natCast]
  simp only [sign]

end Binary64

end ScopedExpr
