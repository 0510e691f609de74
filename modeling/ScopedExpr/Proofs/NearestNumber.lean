import Mathlib.Algebra.Order.Field.Basic
import Mathlib.Data.Nat.Dist
import ScopedExpr.Proofs.ExactNumbers

/-!
# Integers are rounded to the nearest number

The quotient that is rounded half to even is a nearest whole number. The magnitudes are
multiples of the last place, or lie below all numbers that have this last place, so the rounded
units are nearest among the units of all magnitudes. Where two magnitudes are as near, the
significand is even.
-/

namespace ScopedExpr

/-- No finite number is nearer to the rational number, and where another is as near, the
significand is even. -/
def Binary64.IsNearest (x : Binary64) (q : ℚ) : Prop :=
  ∃ negative m r, x = finite negative m ∧ x.exactNumber? = some (.ofRat r) ∧
    ∀ y s, exactNumber? y = some (.ofRat s) →
      |q - r| ≤ |q - s| ∧ (|q - r| = |q - s| → s = r ∨ Even m.significand)

/-- A multiple lies on one side of two neighbours or is one of them. -/
theorem cases_of_multiple (t quotient den : Nat) :
    t * den + den ≤ quotient * den ∨ t = quotient ∨ t = quotient + 1 ∨
      quotient * den + 2 * den ≤ t * den := by
  have grows {a b : Nat} (h : a ≤ b) : a * den ≤ b * den := Nat.mul_le_mul_right den h
  rcases Nat.lt_or_ge t quotient with below | above
  · have le := grows below
    rw [Nat.succ_mul] at le
    exact .inl le
  · rcases Nat.lt_or_ge (quotient + 1) t with beyond | between
    · have le := grows beyond
      rw [Nat.succ_mul, Nat.succ_mul] at le
      omega
    · omega

theorem roundHalfEven_nearest (num : Nat) {den : Nat} (positive : 0 < den) (t : Nat) :
    Nat.dist num (roundHalfEven num den * den) ≤ Nat.dist num (t * den) ∧
      (Nat.dist num (roundHalfEven num den * den) = Nat.dist num (t * den) →
        t = roundHalfEven num den ∨ roundHalfEven num den % 2 = 0) := by
  have split := Nat.div_add_mod' num den
  have small := Nat.mod_lt num positive
  have next : (num / den + 1) * den = num / den * den + den := Nat.succ_mul _ _
  have sides := cases_of_multiple t (num / den) den
  simp only [roundHalfEven, Nat.dist]
  split
  · rcases sides with below | rfl | rfl | beyond <;> omega
  · rcases sides with below | rfl | rfl | beyond <;> omega

namespace Magnitude

variable {u : Nat} {m : Magnitude}

/-- A magnitude is a multiple of a place or below all magnitudes that have it. -/
theorem units_cases (m : Magnitude) (scale : Nat) :
    (∃ t, m.units = t * twoPow scale) ∨ 0 < scale ∧ m.units < twoPow (52 + scale) := by
  rcases Nat.lt_or_ge m.scale scale with finer | multiple
  · refine .inr ⟨Nat.zero_lt_of_lt finer, ?_⟩
    exact Nat.lt_of_lt_of_le m.units_lt_of_scale (twoPow_le_twoPow (by omega))
  · refine .inl ⟨m.significand * twoPow (m.scale - scale), ?_⟩
    rw [units, Nat.mul_assoc, ← twoPow_add, Nat.sub_add_cancel multiple]

theorem units_of_nearest? (near : nearest? u 1 = some m) : m.units = roundedUnits u := by
  obtain ⟨n, found, rounded⟩ | ⟨none, -⟩ := cases_of_nearest? u
  · rw [← rounded, Option.some.inj (near.symm.trans found)]
  · cases none.symm.trans near

/-- The rounded quotient is the significand, unless it is carried, and then both are even. -/
theorem even_significand_of_nearest? (near : nearest? u 1 = some m)
    (even : roundHalfEven u (twoPow (u.log2 - 52)) % 2 = 0) : m.significand % 2 = 0 := by
  simp only [nearest?, Nat.div_one, Nat.one_mul] at near
  split at near
  · rw [(ofParts?_eq_some near).1]
    rfl
  · rwa [(ofParts?_eq_some near).1]

theorem nearest?_nearest (near : nearest? u 1 = some m) (n : Magnitude) :
    Nat.dist u m.units ≤ Nat.dist u n.units ∧
      (Nat.dist u m.units = Nat.dist u n.units → n.units = m.units ∨ m.significand % 2 = 0) := by
  have even := even_significand_of_nearest? near
  rw [units_of_nearest? near, roundedUnits]
  have nearest := roundHalfEven_nearest u (twoPow_pos (u.log2 - 52))
  generalize is : u.log2 - 52 = scale at even nearest ⊢
  obtain ⟨t, multiple⟩ | ⟨positive, below⟩ := n.units_cases scale
  · rw [multiple]
    obtain ⟨le, tie⟩ := nearest t
    exact ⟨le, fun same => (tie same).imp (congrArg (· * twoPow scale)) even⟩
  · -- the least magnitude with this last place is nearer than all below it
    have above := le_of_scale_pos is positive
    obtain ⟨le, -⟩ := nearest (twoPow 52)
    rw [← twoPow_add] at le
    have less : Nat.dist u (twoPow (52 + scale)) < Nat.dist u n.units := by
      simp only [Nat.dist]
      omega
    exact ⟨by omega, by omega⟩

end Magnitude

theorem abs_sub_places (i j : Int) :
    |(i : ℚ) / Magnitude.unitsPerOne - (j : ℚ) / Magnitude.unitsPerOne| =
      ((i - j).natAbs : ℚ) / Magnitude.unitsPerOne := by
  have one : (0 : ℚ) < Magnitude.unitsPerOne := Nat.cast_pos.2 Magnitude.unitsPerOne_pos
  rw [← sub_div, abs_div, abs_of_pos one, ← Int.cast_sub, ← Int.cast_abs, Int.abs_eq_natAbs,
    Int.cast_natCast]

namespace Binary64

theorem signed_natAbs (n : Int) : signed (n < 0) n.natAbs = n := by
  rcases Int.lt_or_le n 0 with negative | positive
  · simp only [signed, negative, decide_true, if_true]
    omega
  · simp only [signed, Int.not_lt.2 positive, decide_false, Bool.false_eq_true, if_false]
    omega

theorem natAbs_signed_sub (negative : Bool) (u v : Nat) :
    (signed negative u - signed negative v).natAbs = Nat.dist u v := by
  cases negative <;> simp only [signed, Nat.dist, Bool.false_eq_true, if_false, if_true] <;> omega

/-- Other signs take numbers further apart. -/
theorem dist_le_natAbs_signed_sub (negative other : Bool) (u v : Nat) :
    Nat.dist u v ≤ (signed negative u - signed other v).natAbs := by
  cases negative <;> cases other <;>
    simp only [signed, Nat.dist, Bool.false_eq_true, if_false, if_true] <;> omega

theorem signed_nearest {u : Nat} {m : Magnitude} (near : Magnitude.nearest? u 1 = some m)
    (negative other : Bool) (v : Magnitude) :
    (signed negative u - signed negative m.units).natAbs ≤
        (signed negative u - signed other v.units).natAbs ∧
      ((signed negative u - signed negative m.units).natAbs =
          (signed negative u - signed other v.units).natAbs →
        signed other v.units = signed negative m.units ∨ m.significand % 2 = 0) := by
  obtain ⟨le, tie⟩ := Magnitude.nearest?_nearest near v
  obtain ⟨zero, -⟩ := Magnitude.nearest?_nearest near .zero
  have far := dist_le_natAbs_signed_sub negative other u v.units
  rw [natAbs_signed_sub]
  refine ⟨le.trans far, fun same => ?_⟩
  refine (tie (le_antisymm le (far.trans same.ge))).imp_left fun units => ?_
  -- with other signs, one of the two is zero, and so is the rounded one
  rw [units] at same ⊢
  rw [Magnitude.units_zero] at zero
  cases negative <;> cases other <;>
    simp only [signed, Nat.dist, Bool.false_eq_true, if_false, if_true] at same zero ⊢ <;> omega

theorem exists_magnitude_of_ofInt (n : Int64) :
    ∃ m, Magnitude.nearest? (n.toInt.natAbs * Magnitude.unitsPerOne) 1 = some m ∧
      ofInt n.toInt = finite (n.toInt < 0) m := by
  obtain ⟨m, near, -⟩ | ⟨-, beyond⟩ :=
    Magnitude.cases_of_nearest? (n.toInt.natAbs * Magnitude.unitsPerOne)
  · refine ⟨m, near, ?_⟩
    rw [ofInt, nearest, near]
  · exfalso
    have scale := Magnitude.log2_mono (natAbs_units_le n)
    rw [log2_twoPow] at scale
    have le := Nat.le_trans beyond (Magnitude.roundedUnits_le rfl)
    exact absurd le (Nat.not_le.2 (twoPow_lt_twoPow (by omega)))

/-- An integer is rounded to the nearest number, and to an even one between two. -/
theorem ofInt_isNearest (n : Int64) : (ofInt n.toInt).IsNearest n.toInt := by
  obtain ⟨m, near, rounded⟩ := exists_magnitude_of_ofInt n
  have one : (0 : ℚ) < Magnitude.unitsPerOne := Nat.cast_pos.2 Magnitude.unitsPerOne_pos
  have place : n.toInt * Magnitude.unitsPerOne =
      signed (n.toInt < 0) (n.toInt.natAbs * Magnitude.unitsPerOne) := by
    rw [signed_mul, signed_natAbs]
  refine ⟨_, m, _, rounded, by rw [rounded, exactNumber?_finite], fun y s hy => ?_⟩
  cases y with
  | nan => cases hy
  | infinite negative => cases negative <;> cases hy
  | finite other v =>
    rw [exactNumber?_finite] at hy
    cases hy
    obtain ⟨le, tie⟩ := signed_nearest near (n.toInt < 0) other v
    rw [cast_eq_units_div, place, abs_sub_places, abs_sub_places, div_le_div_iff_of_pos_right one,
      Nat.cast_le, div_left_inj' one.ne', Nat.cast_inj, Nat.even_iff]
    exact ⟨le, fun same => (tie same).imp_left fun units => by rw [units]⟩

end Binary64

end ScopedExpr
