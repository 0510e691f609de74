/-!
# Binary64 numbers

A number is a NaN, a signed infinity or a signed magnitude. A magnitude is a
significand below `2 ^ 53` times a power of two, counted in units of `2 ^ -1074`.
Every finite number is therefore an exact whole number of units, and rounding is
done in natural-number arithmetic: to the nearest number, a tie to the even
significand, and past the largest magnitude to an infinity.
-/

namespace ScopedExpr

def twoPow (exponent : Nat) : Nat := Nat.pow 2 exponent

def fivePow (exponent : Nat) : Nat := Nat.pow 5 exponent

def tenPow (exponent : Nat) : Nat := Nat.pow 10 exponent

theorem twoPow_pos (exponent : Nat) : 0 < twoPow exponent := Nat.pow_pos (by decide)

theorem tenPow_pos (exponent : Nat) : 0 < tenPow exponent := Nat.pow_pos (by decide)

/-- A finite magnitude of `significand * 2 ^ scale` units. The significand is full
(at least `2 ^ 52`) unless the scale is least, so each magnitude has one form. -/
structure Magnitude where
  significand : Nat
  scale : Nat
  significand_lt : significand < twoPow 53
  scale_le : scale ≤ 2045
  full_or_least : scale = 0 ∨ twoPow 52 ≤ significand
deriving DecidableEq

namespace Magnitude

def ofParts? (significand scale : Nat) : Option Magnitude :=
  if h : significand < twoPow 53 ∧ scale ≤ 2045 ∧ (scale = 0 ∨ twoPow 52 ≤ significand) then
    some ⟨significand, scale, h.1, h.2.1, h.2.2⟩
  else none

def zero : Magnitude := ⟨0, 0, by decide, by decide, .inl rfl⟩

def units (m : Magnitude) : Nat := m.significand * twoPow m.scale

def unitsPerOne : Nat := twoPow 1074

@[simp] theorem units_zero : zero.units = 0 := Nat.zero_mul _

theorem ofParts?_eq_some {s k : Nat} {m : Magnitude} (h : ofParts? s k = some m) :
    m.significand = s ∧ m.scale = k := by
  unfold ofParts? at h
  split at h
  · cases h
    exact ⟨rfl, rfl⟩
  · cases h

@[simp] theorem ofParts?_parts (m : Magnitude) :
    ofParts? m.significand m.scale = some m :=
  dif_pos ⟨m.significand_lt, m.scale_le, m.full_or_least⟩

end Magnitude

/-- The quotient rounded to the nearest whole number, a half to the even one. -/
def roundHalfEven (num den : Nat) : Nat :=
  let quotient := num / den
  let twice := 2 * (num % den)
  if den < twice ∨ (twice = den ∧ quotient % 2 = 1) then quotient + 1 else quotient

theorem roundHalfEven_mem (num den : Nat) :
    roundHalfEven num den = num / den ∨ roundHalfEven num den = num / den + 1 := by
  unfold roundHalfEven
  simp only
  split
  · exact .inr rfl
  · exact .inl rfl

theorem roundHalfEven_mul_self (n : Nat) {den : Nat} (h : 0 < den) :
    roundHalfEven (n * den) den = n := by
  simp [roundHalfEven, Nat.mul_div_cancel n h]
  omega

namespace Magnitude

/-- The magnitude nearest to `num / den` units, or nothing when that is too large.
The scale keeps 53 bits of the quotient; a significand rounded up to `2 ^ 53` is
carried into the scale. -/
def nearest? (num den : Nat) : Option Magnitude :=
  let scale := Nat.log2 (num / den) - 52
  let significand := roundHalfEven num (den * twoPow scale)
  if significand = twoPow 53 then ofParts? (twoPow 52) (scale + 1) else ofParts? significand scale

end Magnitude

/-- A binary64 number; all NaNs are one. -/
inductive Binary64 where
  | nan
  | infinite (negative : Bool)
  | finite (negative : Bool) (magnitude : Magnitude)
deriving DecidableEq

namespace Binary64

def nearest (negative : Bool) (num den : Nat) : Binary64 :=
  match Magnitude.nearest? num den with
  | some m => finite negative m
  | none => infinite negative

def zero (negative : Bool) : Binary64 := finite negative .zero

def ofInt (n : Int) : Binary64 :=
  nearest (n < 0) (n.natAbs * Magnitude.unitsPerOne) 1

def signed (negative : Bool) (units : Nat) : Int := if negative then -units else units

/-- The exact number of units of a finite number. -/
def units? : Binary64 → Option Int
  | finite negative m => some (signed negative m.units)
  | _ => none

/-- The place of a number in the order: units for finite numbers, and a bound past
all of them for the infinities. A NaN has no place. -/
def rank? : Binary64 → Option Int
  | nan => none
  | infinite negative => some (signed negative (twoPow 2098))
  | finite negative m => some (signed negative m.units)

/-- A relation of places; it never holds of a NaN. -/
def compareWith (holds : Int → Int → Bool) (x y : Binary64) : Bool :=
  match x.rank?, y.rank? with
  | some a, some b => holds a b
  | _, _ => false

/-- Numeric equality: the two zeros are equal and a NaN differs from itself. -/
def numEq : Binary64 → Binary64 → Bool := compareWith (fun a b => a == b)

def lt : Binary64 → Binary64 → Bool := compareWith (fun a b => a < b)

def le : Binary64 → Binary64 → Bool := compareWith (fun a b => a ≤ b)

def isWhole : Binary64 → Bool
  | finite _ m => m.units % Magnitude.unitsPerOne == 0
  | _ => false

/-- The integer next to a number on the side of zero, or the last one before a number that is
further out; a NaN gives zero. -/
def toInt64 : Binary64 → Int64
  | nan => 0
  | infinite negative => if negative then Int64.minValue else Int64.maxValue
  | finite negative m =>
    let whole := signed negative (m.units / Magnitude.unitsPerOne)
    if whole < Int64.minValue.toInt then Int64.minValue
    else if Int64.maxValue.toInt < whole then Int64.maxValue
    else Int64.ofInt whole

/-- The number is exactly the integer. An integer would be rounded among the numbers, so the
number is taken among the integers where it is whole and within their bounds. The upper bound
is rounded, to the first number that is none of them. -/
def equalsInt64 (x : Binary64) (n : Int64) : Bool :=
  x.isWhole && (ofInt Int64.minValue.toInt).le x && x.lt (ofInt Int64.maxValue.toInt) &&
    x.toInt64 == n

@[simp] theorem compareWith_nan_left (r : Int → Int → Bool) (y : Binary64) :
    compareWith r nan y = false := rfl

@[simp] theorem compareWith_nan_right (r : Int → Int → Bool) (x : Binary64) :
    compareWith r x nan = false := by
  cases x <;> rfl

/-- The number of a 64-bit interchange word: sign, eleven exponent bits, 52 fraction
bits. -/
def ofBits (word : Nat) : Binary64 :=
  let negative := word / twoPow 63 % 2 == 1
  let field := word / twoPow 52 % twoPow 11
  let fraction := word % twoPow 52
  let magnitude? :=
    if field = 0 then Magnitude.ofParts? fraction 0
    else Magnitude.ofParts? (twoPow 52 + fraction) (field - 1)
  match magnitude? with
  | some m => finite negative m
  | none => if fraction = 0 then infinite negative else nan

/-- The interchange word of a number; a NaN has no word of its own. -/
def toBits? : Binary64 → Option Nat
  | nan => none
  | infinite negative => some (signBit negative + 2047 * twoPow 52)
  | finite negative m =>
    let fields :=
      if m.significand < twoPow 52 then m.significand
      else (m.scale + 1) * twoPow 52 + (m.significand - twoPow 52)
    some (signBit negative + fields)
where
  /-- The weight of the sign bit. -/
  signBit (negative : Bool) : Nat := if negative then twoPow 63 else 0

end Binary64

end ScopedExpr
