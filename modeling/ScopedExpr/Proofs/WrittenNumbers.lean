import Mathlib.Data.List.Induction
import ScopedExpr.NumberStyle
import ScopedExpr.Proofs.DecimalRounding
import ScopedExpr.Proofs.TextGrammar

/-!
# Written numbers

A style without powers of ten writes a magnitude as digits, a point and digits. Such a text
is one number of the lexical grammar, whatever the digits are, and the decimal fraction that
it writes is read as the magnitude.
-/

namespace ScopedExpr

theorem ofDecimalDigits_append (a b : List Nat) :
    ofDecimalDigits (a ++ b) = ofDecimalDigits a * tenPow b.length + ofDecimalDigits b := by
  induction b using List.reverseRecOn with
  | nil => simp [ofDecimalDigits, tenPow]
  | append_singleton b d ih =>
    rw [← List.append_assoc, ofDecimalDigits_append_singleton, ofDecimalDigits_append_singleton,
      ih, List.length_append, List.length_singleton, tenPow, tenPow, Nat.pow_eq, Nat.pow_eq,
      Nat.pow_succ]
    ring

theorem readDigits_append (a b : List Char) :
    readDigits (a ++ b) = readDigits a * tenPow b.length + readDigits b := by
  simp [readDigits, ofDecimalDigits_append]

theorem readDigits_zeros (count : Nat) : readDigits (List.replicate count '0') = 0 := by
  induction count with
  | zero => rfl
  | succ count ih =>
    rw [List.replicate_succ', readDigits_append, ih, Nat.zero_mul, Nat.zero_add]
    rfl

theorem natNumeral_ne_nil (n : Nat) : natNumeral n ≠ [] := by
  unfold natNumeral decimalDigits
  split <;> simp

structure Digits (text : List Char) : Prop where
  nonempty : text ≠ []
  all : ∀ c ∈ text, c.isDigit = true

namespace Digits

variable {text more : List Char}

theorem natNumeral (n : Nat) : Digits (natNumeral n) :=
  ⟨natNumeral_ne_nil n, fun _ => isDigit_of_mem_natNumeral⟩

theorem zero : Digits ['0'] := by
  refine ⟨List.cons_ne_nil _ _, fun c mem => ?_⟩
  rw [List.mem_singleton.1 mem]
  rfl

theorem append (h : Digits text) (all : ∀ c ∈ more, c.isDigit = true) : Digits (text ++ more) :=
  ⟨fun nothing => h.nonempty (List.append_eq_nil_iff.1 nothing).1,
    List.forall_mem_append.2 ⟨h.all, all⟩⟩

theorem isDigits (h : Digits text) : IsDigits text := by
  obtain ⟨c, after, rfl⟩ := List.exists_cons_of_ne_nil h.nonempty
  obtain ⟨digit, all⟩ := List.forall_mem_cons.1 h.all
  exact ⟨c, after, rfl, digit, fun d mem => by simp [isNumberChar, all d mem]⟩

theorem notMem {c : Char} (h : Digits text) (other : c.isDigit = false) : c ∉ text := by
  intro mem
  rw [h.all c mem] at other
  cases other

theorem withoutSeparators (h : Digits text) : withoutSeparators text = text := by
  refine List.filter_eq_self.2 fun c mem => ?_
  rw [bne_iff_ne]
  rintro rfl
  exact h.notMem rfl mem

end Digits

theorem isDigit_of_mem_zeros {count : Nat} {c : Char} (h : c ∈ List.replicate count '0') :
    c.isDigit = true := by
  rw [List.eq_of_mem_replicate h]
  rfl

/-- The text is digits, a point and digits, and writes the number. -/
def Denotes (text : List Char) (q : ℚ) : Prop :=
  ∃ whole fraction, text = whole ++ '.' :: fraction ∧ Digits whole ∧ Digits fraction ∧
    (decimalFraction whole fraction).value = q

/-- What digits around a point write, one power of ten for each digit behind it. -/
theorem value_decimalFraction {whole fraction : List Char} (hw : Digits whole)
    (hf : Digits fraction) :
    (decimalFraction whole fraction).value =
      readDigits (whole ++ fraction) * 10 ^ (-(fraction.length : Int)) := by
  rw [decimalFraction, Decimal.value, withoutSeparators_append, hw.withoutSeparators,
    hf.withoutSeparators]

section Positional

variable {digits : List Char} (h : Digits digits)
include h

/-- The first digit stands behind the point. -/
theorem denotes_below (below : Nat) :
    Denotes (positionalNotation digits (.negSucc below))
      (readDigits digits * 10 ^ (Int.negSucc below + 1 - digits.length)) := by
  have fraction : Digits (List.replicate below '0' ++ digits) :=
    ⟨fun nothing => h.nonempty (List.append_eq_nil_iff.1 nothing).2,
      List.forall_mem_append.2 ⟨fun _ => isDigit_of_mem_zeros, h.all⟩⟩
  refine ⟨['0'], _, rfl, .zero, fraction, ?_⟩
  have read : readDigits (['0'] ++ (List.replicate below '0' ++ digits)) = readDigits digits := by
    have zeros : ['0'] ++ (List.replicate below '0' ++ digits) =
        List.replicate (below + 1) '0' ++ digits := rfl
    rw [zeros, readDigits_append, readDigits_zeros, Nat.zero_mul, Nat.zero_add]
  have places : -((List.replicate below '0' ++ digits).length : Int) =
      Int.negSucc below + 1 - digits.length := by
    rw [List.length_append, List.length_replicate]
    omega
  rw [value_decimalFraction .zero fraction, read, places]

/-- All digits stand before the point, with zeros up to it. -/
theorem denotes_whole {above : Nat} (short : digits.length ≤ above + 1) :
    Denotes (positionalNotation digits (.ofNat above))
      (readDigits digits * 10 ^ (Int.ofNat above + 1 - digits.length)) := by
  obtain ⟨zeros, count⟩ : ∃ zeros : Nat, above + 1 = digits.length + zeros :=
    ⟨_, (Nat.add_sub_cancel' short).symm⟩
  have split : positionalNotation digits (.ofNat above) =
      digits ++ List.replicate zeros '0' ++ '.' :: ['0'] := by
    simp [positionalNotation, count]
  have whole : Digits (digits ++ List.replicate zeros '0') := h.append fun _ => isDigit_of_mem_zeros
  have places : Int.ofNat above + 1 - digits.length = zeros := by
    rw [Int.ofNat_eq_natCast]
    omega
  have read : readDigits (digits ++ List.replicate zeros '0' ++ ['0']) =
      readDigits digits * tenPow zeros * 10 := by
    rw [readDigits_append, readDigits_append, readDigits_zeros, List.length_replicate]
    rfl
  refine ⟨_, _, split, whole, .zero, ?_⟩
  rw [value_decimalFraction whole .zero, read, places]
  simp [cast_tenPow]

/-- The point stands between the digits. -/
theorem denotes_between {above : Nat} (long : above + 1 < digits.length) :
    Denotes (positionalNotation digits (.ofNat above))
      (readDigits digits * 10 ^ (Int.ofNat above + 1 - digits.length)) := by
  have length : (digits.take (above + 1)).length = above + 1 := by simp; omega
  have whole : Digits (digits.take (above + 1)) :=
    ⟨List.ne_nil_of_length_eq_add_one length, fun c mem => h.all c (List.mem_of_mem_take mem)⟩
  have behind : (digits.drop (above + 1)).length = digits.length - (above + 1) := by simp
  have fraction : Digits (digits.drop (above + 1)) :=
    ⟨fun nothing => by simp at nothing; omega, fun c mem => h.all c (List.mem_of_mem_drop mem)⟩
  have split : positionalNotation digits (.ofNat above) =
      digits.take (above + 1) ++ '.' :: digits.drop (above + 1) := by
    simp [positionalNotation, length, fraction.nonempty]
  have places : -((digits.drop (above + 1)).length : Int) =
      Int.ofNat above + 1 - digits.length := by
    rw [behind, Int.ofNat_eq_natCast]
    omega
  refine ⟨_, _, split, whole, fraction, ?_⟩
  rw [value_decimalFraction whole fraction, List.take_append_drop, places]

/-- Wherever the point stands, the first digit counts for its power of ten. -/
theorem denotes_positionalNotation (leading : Int) :
    Denotes (positionalNotation digits leading)
      (readDigits digits * 10 ^ (leading + 1 - digits.length)) := by
  cases leading with
  | negSucc below => exact denotes_below h below
  | ofNat above =>
    rcases Nat.lt_or_ge (above + 1) digits.length with long | short
    · exact denotes_between h long
    · exact denotes_whole h short

end Positional

/-- A whole number with a zero behind its point. -/
theorem denotes_natNumeral (n : Nat) : Denotes (natNumeral n ++ ['.', '0']) n := by
  refine ⟨_, ['0'], rfl, .natNumeral n, .zero, ?_⟩
  rw [value_decimalFraction (.natNumeral n) .zero, readDigits_append, readDigits_natNumeral]
  have read : n * tenPow ['0'].length + readDigits ['0'] = n * 10 := rfl
  rw [read]
  simp

namespace NumberStyle

variable {style : NumberStyle}

/-- A magnitude is written as digits around a point that are read as the magnitude. -/
theorem exists_writeMagnitude (positional : ∀ leading, style.positional leading = true)
    (m : Magnitude) :
    ∃ whole fraction, style.writeMagnitude m = whole ++ '.' :: fraction ∧ Digits whole ∧
      Digits fraction ∧ (decimalFraction whole fraction).magnitude? = some m := by
  suffices written : ∃ x : Decimal, Denotes (style.writeMagnitude m) x.value ∧
      x.magnitude? = some m by
    obtain ⟨x, ⟨whole, fraction, split, hw, hf, value⟩, read⟩ := written
    exact ⟨whole, fraction, split, hw, hf, (Decimal.magnitude?_congr value).trans read⟩
  unfold writeMagnitude
  split
  case isTrue zero =>
    refine ⟨⟨0, 0⟩, ?_, Decimal.magnitude?_of_exact ?_⟩
    · refine ⟨['0'], ['0'], rfl, .zero, .zero, ?_⟩
      have none : readDigits (['0'] ++ ['0']) = 0 := readDigits_zeros 2
      rw [value_decimalFraction .zero .zero, none]
      simp only [Decimal.value, Nat.cast_zero, zero_mul]
    · simp only [Decimal.value, zero, Nat.cast_zero, zero_mul]
  case isFalse =>
    split
    case isTrue whole =>
      have exact := Nat.div_mul_cancel (Nat.dvd_of_mod_eq_zero whole.2)
      refine ⟨⟨m.units / Magnitude.unitsPerOne, 0⟩, ?_, Decimal.magnitude?_of_exact ?_⟩
      · simpa only [Decimal.value, zpow_zero, mul_one] using denotes_natNumeral _
      · rw [Decimal.value, zpow_zero, mul_one]
        exact_mod_cast exact
    case isFalse =>
      refine ⟨m.shortest style.tie, ?_, m.magnitude?_shortest _⟩
      simp only [positional, if_true]
      have written := denotes_positionalNotation (.natNumeral (m.shortest style.tie).significand)
        ((m.shortest style.tie).exponent +
          (natNumeral (m.shortest style.tie).significand).length - 1)
      rwa [sub_add_cancel, add_sub_cancel_right, readDigits_natNumeral] at written

end NumberStyle

end ScopedExpr
