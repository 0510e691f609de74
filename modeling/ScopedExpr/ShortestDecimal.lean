import ScopedExpr.DecimalNumeral

/-!
# Shortest decimals

The shortest decimal of a magnitude has the fewest significant digits among those
that are read back as it, and is the nearest of those. For each number of digits
only the two neighbours on the decimal grid can qualify, so the search tests those.
-/

namespace ScopedExpr

inductive TieRule where
  | upward
  | toEven
deriving DecidableEq

def TieRule.takesLower : TieRule → Nat → Bool
  | upward, _ => false
  | toEven, low => low % 2 == 0

namespace Magnitude

def readFrom (m : Magnitude) (x : Decimal) : Bool := x.magnitude? == some m

/-- The power of ten of the first digit of a positive magnitude. -/
def leadingExponent (m : Magnitude) : Int :=
  (decimalDigits (m.units * tenPow 324 / unitsPerOne)).length - 325

/-- The magnitude in steps of `10 ^ exponent`, as a fraction. -/
def inSteps (m : Magnitude) : Int → Nat × Nat
  | .ofNat e => (m.units, unitsPerOne * tenPow e)
  | .negSucc e => (m.units * tenPow (e + 1), unitsPerOne)

/-- The nearer of the neighbours on the grid of steps `10 ^ exponent` that are read
as the magnitude. -/
def onGrid? (tie : TieRule) (m : Magnitude) (exponent : Int) : Option Decimal :=
  let (num, den) := m.inSteps exponent
  let low := num / den
  let twice := 2 * (num % den)
  let lower : Decimal := ⟨low, exponent⟩
  let upper : Decimal := ⟨low + 1, exponent⟩
  match m.readFrom lower, m.readFrom upper with
  | true, true =>
    some (if twice < den ∨ (twice = den ∧ tie.takesLower low) then lower else upper)
  | true, false => some lower
  | false, true => some upper
  | false, false => none

/-- Every digit of the exact value: halving so often is five times as much, so many places
further down. -/
def expansion (m : Magnitude) : Decimal := ⟨m.units * fivePow 1074, -1074⟩

/-- The shortest decimal that is read as the magnitude, without zeros at its end.
Seventeen digits always suffice. -/
def shortest (tie : TieRule) (m : Magnitude) : Decimal :=
  let found := (List.range 17).findSome? fun (more : Nat) =>
    m.onGrid? tie (m.leadingExponent - more)
  (found.getD m.expansion).trim

theorem readFrom_of_onGrid? {tie : TieRule} {m : Magnitude} {e : Int} {x : Decimal}
    (h : m.onGrid? tie e = some x) : m.readFrom x = true := by
  unfold onGrid? at h
  simp only at h
  split at h
  · split at h <;> simp_all
  · simp_all
  · simp_all
  · cases h

end Magnitude

end ScopedExpr
