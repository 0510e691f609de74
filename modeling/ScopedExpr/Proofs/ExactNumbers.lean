import Mathlib.Data.Rat.Cast.Order
import ScopedExpr.DynamicValue
import ScopedExpr.Proofs.RoundingOrder

/-!
# Exact numbers

An integer and a finite binary64 number are rational numbers, an infinity lies beyond them
all, and a NaN is no number. This is read off the fields of the interchange word. Counted in
units, exact numbers are places among the integers, with the same order.
-/

namespace ScopedExpr

/-- The rational numbers with a bound below and a bound above them. -/
abbrev ExactNumber := WithBot (WithTop ℚ)

def ExactNumber.ofRat (q : ℚ) : ExactNumber := ((q : WithTop ℚ) : WithBot (WithTop ℚ))

/-- What a 64-bit word denotes, by its sign, eleven bits of exponent and 52 of fraction. -/
def exactNumberOfWord? (word : Nat) : Option ExactNumber :=
  let negative := word / twoPow 63 % 2 = 1
  let sign : ℚ := if negative then -1 else 1
  let exponent := word / twoPow 52 % twoPow 11
  let fraction := word % twoPow 52
  if exponent = 2047 then
    if fraction = 0 then some (if negative then ⊥ else ⊤) else none
  else if exponent = 0 then
    some (.ofRat (sign * (fraction / twoPow 52) * 2 ^ (-1022 : Int)))
  else
    some (.ofRat (sign * (1 + fraction / twoPow 52) * 2 ^ ((exponent : Int) - 1023)))

def Binary64.exactNumber? : Binary64 → Option ExactNumber
  | nan => none
  | infinite negative => some (if negative then ⊥ else ⊤)
  | finite negative m =>
    some (.ofRat ((if negative then -1 else 1) * m.significand * 2 ^ ((m.scale : Int) - 1074)))

namespace Value

def exactNumber? : Value → Option ExactNumber
  | .integer n => some (.ofRat n.toInt)
  | .float x => x.exactNumber?
  | _ => Option.none

def IsNumber : Value → Prop
  | .integer _ | .float _ => True
  | _ => False

end Value

namespace Binary64

section Words

variable {word : Nat}

theorem ofBits_of_least (least : word / twoPow 52 % twoPow 11 = 0) :
    ∃ m, ofBits word = finite (word / twoPow 63 % 2 == 1) m ∧
      m.significand = word % twoPow 52 ∧ m.scale = 0 := by
  have small : word % twoPow 52 < twoPow 53 :=
    Nat.lt_trans (Nat.mod_lt _ (twoPow_pos 52)) (by decide)
  have parts : Magnitude.ofParts? (word % twoPow 52) 0 =
      some ⟨word % twoPow 52, 0, small, Nat.zero_le _, .inl rfl⟩ :=
    dif_pos ⟨small, Nat.zero_le _, .inl rfl⟩
  refine ⟨⟨_, _, small, Nat.zero_le _, .inl rfl⟩, ?_, rfl, rfl⟩
  simp only [ofBits, if_pos least, parts]

theorem ofBits_of_normal (some : word / twoPow 52 % twoPow 11 ≠ 0)
    (within : word / twoPow 52 % twoPow 11 ≤ 2046) :
    ∃ m, ofBits word = finite (word / twoPow 63 % 2 == 1) m ∧
      m.significand = twoPow 52 + word % twoPow 52 ∧
      m.scale = word / twoPow 52 % twoPow 11 - 1 := by
  have small : twoPow 52 + word % twoPow 52 < twoPow 53 := by
    have fraction := Nat.mod_lt word (twoPow_pos 52)
    have double : twoPow 53 = twoPow 52 + twoPow 52 := rfl
    omega
  have scale : word / twoPow 52 % twoPow 11 - 1 ≤ 2045 := by omega
  have full : word / twoPow 52 % twoPow 11 - 1 = 0 ∨ twoPow 52 ≤ twoPow 52 + word % twoPow 52 :=
    .inr (Nat.le_add_right _ _)
  have parts : Magnitude.ofParts? (twoPow 52 + word % twoPow 52)
      (word / twoPow 52 % twoPow 11 - 1) = .some ⟨_, _, small, scale, full⟩ :=
    dif_pos ⟨small, scale, full⟩
  refine ⟨⟨_, _, small, scale, full⟩, ?_, rfl, rfl⟩
  simp only [ofBits, if_neg some, parts]

theorem ofBits_of_greatest (greatest : word / twoPow 52 % twoPow 11 = 2047) :
    ofBits word =
      if word % twoPow 52 = 0 then infinite (word / twoPow 63 % 2 == 1) else nan := by
  have parts : Magnitude.ofParts? (twoPow 52 + word % twoPow 52) 2046 = none :=
    dif_neg fun h => absurd h.2.1 (by decide)
  have some : ¬ 2047 = 0 := by decide
  simp only [ofBits, greatest, if_neg some, parts]

end Words

theorem fraction_mul_two_zpow (q : ℚ) (e : Int) : q / twoPow 52 * 2 ^ e = q * 2 ^ (e - 52) := by
  rw [zpow_sub₀ two_ne_zero, cast_twoPow]
  field_simp

/-- A number is what its word denotes. -/
theorem exactNumber?_ofBits (word : Nat) :
    (ofBits word).exactNumber? = exactNumberOfWord? word := by
  have nonzero : (twoPow 52 : ℚ) ≠ 0 := Nat.cast_ne_zero.2 (twoPow_pos 52).ne'
  have below : word / twoPow 52 % twoPow 11 < 2048 := Nat.mod_lt _ (twoPow_pos 11)
  by_cases greatest : word / twoPow 52 % twoPow 11 = 2047
  · rw [ofBits_of_greatest greatest]
    simp only [exactNumberOfWord?, if_pos greatest]
    split
    · simp only [exactNumber?, beq_iff_eq]
    · rfl
  by_cases least : word / twoPow 52 % twoPow 11 = 0
  · obtain ⟨m, is, significand, scale⟩ := ofBits_of_least least
    simp only [is, exactNumber?, exactNumberOfWord?, if_neg greatest, if_pos least, significand,
      scale, beq_iff_eq, mul_assoc, fraction_mul_two_zpow]
    rfl
  · obtain ⟨m, is, significand, scale⟩ := ofBits_of_normal least (by omega)
    have whole (q : ℚ) : 1 + q / twoPow 52 = (twoPow 52 + q) / twoPow 52 := by
      rw [add_div, div_self nonzero]
    have exponent : ((word / twoPow 52 % twoPow 11 - 1 : Nat) : Int) - 1074 =
        ((word / twoPow 52 % twoPow 11 : Nat) : Int) - 1023 - 52 := by omega
    simp only [is, exactNumber?, exactNumberOfWord?, if_neg greatest, if_neg least, significand,
      scale, beq_iff_eq, mul_assoc, whole, fraction_mul_two_zpow, exponent, Nat.cast_add]

end Binary64

namespace ExactNumber

/-- The place of an exact number among the integers: its units, and for the infinities a
place beyond those of all magnitudes. -/
inductive HasPlace : ExactNumber → Int → Prop where
  | rational {z : Int} (low : -(twoPow 2098 : Int) < z) (high : z < twoPow 2098) :
      HasPlace (.ofRat (z / Magnitude.unitsPerOne)) z
  | bottom : HasPlace ⊥ (-(twoPow 2098 : Int))
  | top : HasPlace ⊤ (twoPow 2098)

@[simp] theorem ofRat_lt_ofRat {q r : ℚ} : ofRat q < ofRat r ↔ q < r := by
  simp [ofRat]

@[simp] theorem ofRat_lt_top (q : ℚ) : ofRat q < ⊤ := WithBot.coe_lt_coe.2 (WithTop.coe_lt_top q)

@[simp] theorem bot_lt_ofRat (q : ℚ) : ⊥ < ofRat q := WithBot.bot_lt_coe _

@[simp] theorem top_ne_ofRat (q : ℚ) : ⊤ ≠ ofRat q := (ofRat_lt_top q).ne'

@[simp] theorem bot_ne_ofRat (q : ℚ) : ⊥ ≠ ofRat q := (bot_lt_ofRat q).ne

theorem ofRat_inj {q r : ℚ} : ofRat q = ofRat r ↔ q = r := by
  simp [ofRat]

variable {p q : ExactNumber} {i j : Int}

theorem HasPlace.lt_iff (hp : p.HasPlace i) (hq : q.HasPlace j) : p < q ↔ i < j := by
  have bound : (0 : Int) < twoPow 2098 := Int.natCast_pos.2 (twoPow_pos 2098)
  have one : (0 : ℚ) < Magnitude.unitsPerOne := Nat.cast_pos.2 Magnitude.unitsPerOne_pos
  cases hp with
  | rational low high =>
    cases hq with
    | rational _ _ => rw [ofRat_lt_ofRat, div_lt_div_iff_of_pos_right one, Int.cast_lt]
    | bottom => exact iff_of_false not_lt_bot (not_lt.2 low.le)
    | top => exact iff_of_true (ofRat_lt_top _) high
  | bottom =>
    cases hq with
    | rational low _ => exact iff_of_true (bot_lt_ofRat _) low
    | bottom => exact iff_of_false not_lt_bot (lt_irrefl _)
    | top => exact iff_of_true bot_lt_top (neg_lt_self bound)
  | top =>
    cases hq with
    | rational _ high => exact iff_of_false not_top_lt (not_lt.2 high.le)
    | bottom => exact iff_of_false not_top_lt (not_lt.2 (neg_lt_self bound).le)
    | top => exact iff_of_false not_top_lt (lt_irrefl _)

theorem HasPlace.eq_iff (hp : p.HasPlace i) (hq : q.HasPlace j) : p = q ↔ i = j := by
  have less := hp.lt_iff hq
  have greater := hq.lt_iff hp
  constructor
  · rintro rfl
    have left := mt less.2 (lt_irrefl p)
    have right := mt greater.2 (lt_irrefl p)
    omega
  · rintro rfl
    exact le_antisymm (le_of_not_gt (mt greater.1 (lt_irrefl i)))
      (le_of_not_gt (mt less.1 (lt_irrefl i)))

end ExactNumber

namespace Binary64

theorem natAbs_signed (negative : Bool) (u : Nat) : (signed negative u).natAbs = u := by
  cases negative <;> simp [signed]

theorem signed_mul (negative : Bool) (a b : Nat) :
    signed negative (a * b) = signed negative a * b := by
  cases negative <;> simp [signed]

theorem cast_signed (negative : Bool) (u : Nat) :
    ((signed negative u : Int) : ℚ) = (if negative then -1 else 1) * u := by
  cases negative <;> simp [signed]

/-- A finite number is its units in parts of one. -/
theorem exactNumber?_finite (negative : Bool) (m : Magnitude) :
    (finite negative m).exactNumber? =
      some (.ofRat ((signed negative m.units : Int) / Magnitude.unitsPerOne)) := by
  have units : (m.significand : ℚ) * 2 ^ ((m.scale : Int) - 1074) =
      m.units / Magnitude.unitsPerOne := by
    rw [Magnitude.units, Magnitude.unitsPerOne, Nat.cast_mul, cast_twoPow, cast_twoPow,
      zpow_sub₀ two_ne_zero, zpow_natCast, zpow_ofNat, mul_div_assoc]
  rw [exactNumber?, mul_assoc, units, cast_signed, mul_div_assoc]

theorem exists_place {x : Binary64} {p : ExactNumber} (h : x.exactNumber? = some p) :
    ∃ z, x.rank? = some z ∧ p.HasPlace z := by
  cases x with
  | nan => cases h
  | infinite negative =>
    cases h
    refine ⟨_, rfl, ?_⟩
    cases negative with
    | false => exact .top
    | true => exact .bottom
  | finite negative m =>
    have within := m.units_lt
    rw [exactNumber?_finite] at h
    cases h
    refine ⟨_, rfl, .rational ?_ ?_⟩ <;> cases negative <;> simp only [signed] <;> split <;> omega

theorem exactNumber?_eq_none_iff {x : Binary64} : x.exactNumber? = none ↔ x = .nan := by
  cases x <;> simp [exactNumber?]

end Binary64

theorem cast_eq_units_div (n : Int) :
    (n : ℚ) = ((n * Magnitude.unitsPerOne : Int) : ℚ) / Magnitude.unitsPerOne := by
  have one : (Magnitude.unitsPerOne : ℚ) ≠ 0 := Nat.cast_ne_zero.2 Magnitude.unitsPerOne_pos.ne'
  rw [Int.cast_mul, Int.cast_natCast, mul_div_cancel_right₀ _ one]

theorem natAbs_units_le (n : Int64) :
    n.toInt.natAbs * Magnitude.unitsPerOne ≤ twoPow (63 + 1074) := by
  have low : -(twoPow 63 : Int) ≤ n.toInt := n.minValue_le_toInt
  have high : n.toInt ≤ twoPow 63 := Int.le_trans n.toInt_le (by decide)
  have bound : n.toInt.natAbs ≤ twoPow 63 := by omega
  rw [Magnitude.unitsPerOne, twoPow_add]
  exact Nat.mul_le_mul_right _ bound

theorem ExactNumber.HasPlace.integer (n : Int64) :
    (ofRat n.toInt).HasPlace (n.toInt * Magnitude.unitsPerOne) := by
  have within := natAbs_units_le n
  have room : twoPow (63 + 1074) < twoPow 2098 := twoPow_lt_twoPow (by decide)
  rw [← Int.natAbs_natCast Magnitude.unitsPerOne, ← Int.natAbs_mul] at within
  rw [cast_eq_units_div]
  exact .rational (by omega) (by omega)

end ScopedExpr
