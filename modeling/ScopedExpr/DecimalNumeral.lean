import ScopedExpr.Binary64

/-!
# Decimal numerals

Whole numbers as lists of decimal digits, most significant first, and the binary64
number nearest to a decimal fraction. Writing a number and reading its digits gives
the number back.
-/

namespace ScopedExpr

/-- The decimal digits of a number, most significant first; zero has one digit. -/
def decimalDigits (n : Nat) : List Nat :=
  if n < 10 then [n] else decimalDigits (n / 10) ++ [n % 10]
termination_by n

def ofDecimalDigits (digits : List Nat) : Nat := digits.foldl (fun n d => 10 * n + d) 0

@[simp] theorem ofDecimalDigits_append_singleton (digits : List Nat) (d : Nat) :
    ofDecimalDigits (digits ++ [d]) = 10 * ofDecimalDigits digits + d := by
  simp [ofDecimalDigits]

@[simp] theorem ofDecimalDigits_decimalDigits (n : Nat) :
    ofDecimalDigits (decimalDigits n) = n := by
  fun_induction decimalDigits n with
  | case1 n h => simp [ofDecimalDigits]
  | case2 n h ih => rw [ofDecimalDigits_append_singleton, ih]; omega

theorem lt_ten_of_mem_decimalDigits {n d : Nat} (h : d ∈ decimalDigits n) : d < 10 := by
  fun_induction decimalDigits n with
  | case1 n hn => simp at h; omega
  | case2 n hn ih =>
    rcases List.mem_append.1 h with h | h
    · exact ih h
    · simp at h; omega

def digitChar (d : Nat) : Char := Char.ofNat ('0'.toNat + d)

def digitValue (c : Char) : Nat := c.toNat - '0'.toNat

theorem digitValue_digitChar {d : Nat} (h : d < 10) : digitValue (digitChar d) = d := by
  have all : ∀ e : Fin 10, digitValue (digitChar e.val) = e.val := by decide
  exact all ⟨d, h⟩

theorem isDigit_digitChar {d : Nat} (h : d < 10) : (digitChar d).isDigit = true := by
  have all : ∀ e : Fin 10, (digitChar e.val).isDigit = true := by decide
  exact all ⟨d, h⟩

def natNumeral (n : Nat) : List Char := (decimalDigits n).map digitChar

def intNumeral : Int → List Char
  | .ofNat n => natNumeral n
  | .negSucc n => '-' :: natNumeral (n + 1)

def readDigits (text : List Char) : Nat := ofDecimalDigits (text.map digitValue)

@[simp] theorem readDigits_natNumeral (n : Nat) : readDigits (natNumeral n) = n := by
  have same : (decimalDigits n).map (digitValue ∘ digitChar) = decimalDigits n :=
    (List.map_congr_left fun d h => digitValue_digitChar (lt_ten_of_mem_decimalDigits h)).trans
      (List.map_id _)
  simp [readDigits, natNumeral, same]

theorem isDigit_of_mem_natNumeral {n : Nat} {c : Char} (h : c ∈ natNumeral n) :
    c.isDigit = true := by
  obtain ⟨d, hd, rfl⟩ := List.mem_map.1 h
  exact isDigit_digitChar (lt_ten_of_mem_decimalDigits hd)

/-- A decimal fraction: `significand * 10 ^ exponent`. -/
structure Decimal where
  significand : Nat
  exponent : Int
deriving DecidableEq

namespace Decimal

/-- Both sides of the fraction `num / den` that equals the decimal times `scale`. -/
def fraction (x : Decimal) (scale : Nat) : Nat × Nat :=
  match x.exponent with
  | .ofNat e => (x.significand * tenPow e * scale, 1)
  | .negSucc e => (x.significand * scale, tenPow (e + 1))

def magnitude? (x : Decimal) : Option Magnitude :=
  let (num, den) := x.fraction Magnitude.unitsPerOne
  Magnitude.nearest? num den

def toBinary64 (x : Decimal) : Binary64 :=
  let (num, den) := x.fraction Magnitude.unitsPerOne
  Binary64.nearest false num den

/-- The same fraction without zeros at the end of the significand. -/
def trim (x : Decimal) : Decimal :=
  if _h : x.significand ≠ 0 ∧ x.significand % 10 = 0 then
    trim ⟨x.significand / 10, x.exponent + 1⟩
  else x
termination_by x.significand
decreasing_by exact Nat.div_lt_self (by omega) (by decide)

end Decimal

end ScopedExpr
