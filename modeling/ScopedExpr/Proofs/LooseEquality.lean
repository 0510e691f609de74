import ScopedExpr.Evaluation
import ScopedExpr.Proofs.ExactNumbers

/-!
# Loose equality

Loose equality holds between two numbers that are exactly the same and between values that
are no numbers and the same; nothing is rounded. So it is a partial equivalence on all values,
with NaN apart, and the operators for it and for its negation never agree.
-/

namespace ScopedExpr

namespace Binary64

theorem compareWith_of_rank? {x y : Binary64} {i j : Int} (hx : x.rank? = some i)
    (hy : y.rank? = some j) (r : Int → Int → Bool) : compareWith r x y = r i j := by
  simp only [compareWith, hx, hy]

theorem numEq_iff {x y : Binary64} :
    x.numEq y = true ↔ ∃ p, x.exactNumber? = some p ∧ y.exactNumber? = some p := by
  cases hx : x.exactNumber? with
  | none =>
    rw [exactNumber?_eq_none_iff.1 hx, numEq, compareWith_nan_left]
    simp
  | some p =>
    cases hy : y.exactNumber? with
    | none =>
      rw [exactNumber?_eq_none_iff.1 hy, numEq, compareWith_nan_right]
      simp
    | some q =>
      obtain ⟨i, hi, placeX⟩ := exists_place hx
      obtain ⟨j, hj, placeY⟩ := exists_place hy
      rw [numEq, compareWith_of_rank? hi hj, beq_iff_eq, ← placeX.eq_iff placeY]
      simp [eq_comm]

theorem rank?_ofInt_minValue : (ofInt Int64.minValue.toInt).rank? =
    some (Int64.minValue.toInt * Magnitude.unitsPerOne) := by
  decide +kernel

/-- The last integer is rounded up, to a number that is no integer of 64 bits. -/
theorem rank?_ofInt_maxValue : (ofInt Int64.maxValue.toInt).rank? =
    some ((Int64.maxValue.toInt + 1) * Magnitude.unitsPerOne) := by
  decide +kernel

theorem isWhole_finite_iff {negative : Bool} {m : Magnitude} :
    (finite negative m).isWhole = true ↔
      signed negative m.units =
        signed negative (m.units / Magnitude.unitsPerOne) * Magnitude.unitsPerOne := by
  have split := Nat.div_add_mod' m.units Magnitude.unitsPerOne
  have whole : (finite negative m).isWhole = true ↔ m.units % Magnitude.unitsPerOne = 0 :=
    beq_iff_eq
  rw [whole]
  cases negative with
  | false =>
    simp only [signed, Bool.false_eq_true, if_false]
    omega
  | true =>
    simp only [signed, if_true, Int.neg_mul]
    omega

theorem toInt64_finite {negative : Bool} {m : Magnitude} {n : Int64}
    (is : signed negative (m.units / Magnitude.unitsPerOne) = n.toInt) :
    (finite negative m).toInt64 = n := by
  have low := n.minValue_le_toInt
  have high := n.toInt_le
  simp only [toInt64, is, if_neg (Int.not_lt.2 low), if_neg (Int.not_lt.2 high), Int64.ofInt_toInt]

theorem equalsInt64_iff {x : Binary64} {n : Int64} :
    x.equalsInt64 n = true ↔ x.exactNumber? = some (.ofRat n.toInt) := by
  cases x with
  | nan => simp [equalsInt64, isWhole, exactNumber?]
  | infinite negative => cases negative <;> simp [equalsInt64, isWhole, exactNumber?]
  | finite negative m =>
    obtain ⟨z, rank, place⟩ := exists_place (x := finite negative m) rfl
    have same : (finite negative m).exactNumber? = some (.ofRat n.toInt) ↔
        z = n.toInt * Magnitude.unitsPerOne := by
      rw [← place.eq_iff (.integer n), exactNumber?, Option.some_inj]
    have units : signed negative m.units = z := Option.some.inj rank
    rw [same]
    simp only [equalsInt64, Bool.and_eq_true, isWhole_finite_iff, units, le, lt,
      compareWith_of_rank? rank?_ofInt_minValue rank,
      compareWith_of_rank? rank rank?_ofInt_maxValue, decide_eq_true_eq, beq_iff_eq]
    generalize is : signed negative (m.units / Magnitude.unitsPerOne) = w
    constructor
    · rintro ⟨⟨⟨whole, low⟩, high⟩, taken⟩
      rw [whole] at low high
      have above := Int.le_of_mul_le_mul_right low unitsPerOne_pos
      have below := Int.lt_of_mul_lt_mul_right high unitsPerOne_pos.le
      have fits : (Int64.ofInt w).toInt = w := Int64.toInt_ofInt_of_le above below
      rw [whole, ← taken, toInt64_finite (is.trans fits.symm), fits]
    · intro exact
      have multiple : m.units = n.toInt.natAbs * Magnitude.unitsPerOne := by
        rw [← natAbs_signed negative m.units, units, exact, Int.natAbs_mul, Int.natAbs_natCast]
      have quotient : m.units / Magnitude.unitsPerOne = n.toInt.natAbs := by
        rw [multiple, Nat.mul_div_cancel _ Magnitude.unitsPerOne_pos]
      have value : w * Magnitude.unitsPerOne = n.toInt * Magnitude.unitsPerOne := by
        rw [← is, quotient, ← signed_mul, ← multiple, units, exact]
      have taken : w = n.toInt := Int.eq_of_mul_eq_mul_right unitsPerOne_pos.ne' value
      have low := Int.mul_le_mul_of_nonneg_right n.minValue_le_toInt unitsPerOne_pos.le
      have high := Int.mul_lt_mul_of_pos_right (Int.lt_add_one_of_le n.toInt_le) unitsPerOne_pos
      rw [value, exact]
      exact ⟨⟨⟨rfl, low⟩, high⟩, toInt64_finite (is.trans taken)⟩

end Binary64

namespace Value

variable {a b c : Value}

theorem exists_exactNumber?_iff :
    (∃ p, a.exactNumber? = some p) ↔ a.IsNumber ∧ a ≠ .float .nan := by
  cases a with
  | float x => cases x <;> simp [exactNumber?, Binary64.exactNumber?, IsNumber]
  | _ => simp [exactNumber?, IsNumber]

theorem integer_looseEq_iff {m n : Int64} :
    (integer m).looseEq (.integer n) = true ↔
      ∃ p, (integer m).exactNumber? = some p ∧ (integer n).exactNumber? = some p := by
  have same : (integer m).looseEq (.integer n) = true ↔ m = n := beq_iff_eq
  simp [same, exactNumber?, ExactNumber.ofRat_inj, Int64.toInt_inj, eq_comm]

/-- Nothing is rounded: two numbers are loosely equal when they are the same number. -/
theorem looseEq_iff : a.looseEq b = true ↔
    (∃ p, a.exactNumber? = some p ∧ b.exactNumber? = some p) ∨ (¬ a.IsNumber ∧ a = b) := by
  cases a with
  | integer m =>
    cases b with
    | integer n => simp [integer_looseEq_iff, IsNumber]
    | float x => simp [looseEq, Binary64.equalsInt64_iff, exactNumber?, IsNumber]
    | _ => simp [looseEq, strictEq, exactNumber?, IsNumber]
  | float x =>
    cases b with
    | integer n => simp [looseEq, Binary64.equalsInt64_iff, exactNumber?, IsNumber]
    | float y => simp [looseEq, strictEq, Binary64.numEq_iff, exactNumber?, IsNumber]
    | _ => simp [looseEq, strictEq, exactNumber?, IsNumber]
  | _ => cases b <;> simp [looseEq, strictEq, exactNumber?, IsNumber]

theorem looseEq_comm (a b : Value) : a.looseEq b = b.looseEq a := by
  rw [Bool.eq_iff_iff, looseEq_iff, looseEq_iff]
  constructor
  · rintro (⟨p, left, right⟩ | ⟨other, rfl⟩)
    · exact .inl ⟨p, right, left⟩
    · exact .inr ⟨other, rfl⟩
  · rintro (⟨p, left, right⟩ | ⟨other, rfl⟩)
    · exact .inl ⟨p, right, left⟩
    · exact .inr ⟨other, rfl⟩

theorem looseEq_trans (hab : a.looseEq b = true) (hbc : b.looseEq c = true) :
    a.looseEq c = true := by
  rw [looseEq_iff] at hab hbc ⊢
  rcases hab with ⟨p, left, middle⟩ | ⟨other, rfl⟩
  · rcases hbc with ⟨q, middle', right⟩ | ⟨-, rfl⟩
    · cases middle.symm.trans middle'
      exact .inl ⟨p, left, right⟩
    · exact .inl ⟨p, left, middle⟩
  · exact hbc

theorem looseEq_self_iff : a.looseEq a = true ↔ a ≠ .float .nan := by
  simp only [looseEq_iff, and_self, exists_exactNumber?_iff, and_true]
  constructor
  · rintro (⟨-, notNaN⟩ | other)
    · exact notNaN
    · rintro rfl
      exact other trivial
  · intro notNaN
    by_cases number : a.IsNumber
    · exact .inl ⟨number, notNaN⟩
    · exact .inr number

theorem looseEq_of_strictEq (h : a.strictEq b = true) : a.looseEq b = true := by
  cases a with
  | integer m =>
    cases b with
    | float x => cases h
    | _ => exact h
  | float x =>
    cases b with
    | integer n => cases h
    | _ => exact h
  | _ => exact h

end Value

/-- Both operators evaluate their operands in the same way and never fail themselves. The
equality is that of the operands' values, and the inequality its negation. -/
theorem Session.evaluate_equalities {equal unequal : Token}
    (isEqual : equal.kind = .punctuator .equalEqual)
    (isUnequal : unequal.kind = .punctuator .bangEqual) (access : Access) (s : Session)
    (left right : Expr) :
    ∃ (outcome : Except EvalError Bool) (s' : Session),
      s.evaluate access (.binary left equal right) = (outcome.map .bool, s') ∧
      s.evaluate access (.binary left unequal right) =
        (outcome.map fun truth => .bool !truth, s') ∧
      ∀ a b s₁ s₂, s.evaluate access left = (.ok a, s₁) →
        s₁.evaluate access right = (.ok b, s₂) → outcome = .ok (a.looseEq b) := by
  rcases hl : s.evaluate access left with ⟨a | a, s₁⟩
  · refine ⟨.error a, s₁, evaluate_binary_of_error_left hl, evaluate_binary_of_error_left hl, ?_⟩
    rintro _ _ _ _ ⟨⟩
  rcases hr : s₁.evaluate access right with ⟨b | b, s₂⟩
  · refine ⟨.error b, s₂, evaluate_binary_of_error_right hl hr,
      evaluate_binary_of_error_right hl hr, ?_⟩
    rintro _ _ _ _ ⟨⟩ right'
    cases hr.symm.trans right'
  · refine ⟨.ok (a.looseEq b), s₂, ?_, ?_, ?_⟩
    · rw [evaluate_binary_of_ok hl hr, applyBinary, isEqual]
      rfl
    · rw [evaluate_binary_of_ok hl hr, applyBinary, isUnequal]
      rfl
    · rintro _ _ _ _ ⟨⟩ right'
      cases hr.symm.trans right'
      rfl

/-- Binary64 numbers are what their words denote. Loose equality of values is sameness, for
numbers that of the exact numbers, and so it is symmetric, transitive through all kinds of
numbers, reflexive but for NaN, and holds wherever strict equality holds. The operator of equality
gives it of the values of its operands, and that of inequality the opposite, or both fail
alike. -/
theorem loose_equality_exact :
    (∀ word, (Binary64.ofBits word).exactNumber? = exactNumberOfWord? word) ∧
    (∀ a b : Value, a.looseEq b = true ↔
      (∃ p, a.exactNumber? = some p ∧ b.exactNumber? = some p) ∨ (¬ a.IsNumber ∧ a = b)) ∧
    (∀ a b : Value, a.looseEq b = b.looseEq a) ∧
    (∀ a b c : Value, a.looseEq b = true → b.looseEq c = true → a.looseEq c = true) ∧
    (∀ a : Value, a.looseEq a = true ↔ a ≠ .float .nan) ∧
    (∀ a b : Value, a.strictEq b = true → a.looseEq b = true) ∧
    ∀ equal unequal : Token, equal.kind = .punctuator .equalEqual →
      unequal.kind = .punctuator .bangEqual →
      ∀ (access : Access) (s : Session) (left right : Expr),
        ∃ (outcome : Except EvalError Bool) (s' : Session),
          s.evaluate access (.binary left equal right) = (outcome.map .bool, s') ∧
          s.evaluate access (.binary left unequal right) =
            (outcome.map fun truth => .bool !truth, s') ∧
          ∀ a b s₁ s₂, s.evaluate access left = (.ok a, s₁) →
            s₁.evaluate access right = (.ok b, s₂) → outcome = .ok (a.looseEq b) :=
  ⟨Binary64.exactNumber?_ofBits, fun _ _ => Value.looseEq_iff, Value.looseEq_comm,
    fun _ _ _ => Value.looseEq_trans, fun _ => Value.looseEq_self_iff,
    fun _ _ => Value.looseEq_of_strictEq,
    fun _ _ isEqual isUnequal => Session.evaluate_equalities isEqual isUnequal⟩

/-- The number `2 ^ 53`, behind which not every integer is a number. -/
def wideNumber : Value := .float (.ofBits 4845873199050653696)

theorem wideNumber_loose_equality :
    (Value.integer 9007199254740992).looseEq wideNumber = true ∧
      wideNumber.looseEq wideNumber = true ∧
      (Value.integer 9007199254740993).looseEq wideNumber = false ∧
      wideNumber.exactNumber? = exactNumberOfWord? 4845873199050653696 ∧
      (Value.integer 9007199254740992).looseEq (.integer 9007199254740992) = true ∧
      ∀ s : Session,
        s.evaluate .resolved (.binary (.literal wideNumber) ⟨.punctuator .equalEqual, "==", 1⟩
          (.literal (.integer 9007199254740992))) = (.ok (.bool true), s) ∧
        s.evaluate .resolved (.binary (.literal wideNumber) ⟨.punctuator .bangEqual, "!=", 1⟩
          (.literal (.integer 9007199254740992))) = (.ok (.bool false), s) := by
  obtain ⟨words, -, symmetric, transitive, reflexive, strict, opposite⟩ := loose_equality_exact
  have equal : (Value.integer 9007199254740992).looseEq wideNumber = true := by decide +kernel
  have back : wideNumber.looseEq (.integer 9007199254740992) = true := symmetric _ _ ▸ equal
  have itself : wideNumber.strictEq wideNumber = true := by decide +kernel
  refine ⟨equal, strict _ _ itself, by decide +kernel, words 4845873199050653696,
    transitive _ _ _ equal back, fun s => ?_⟩
  obtain ⟨outcome, s', equality, inequality, value⟩ := opposite
    ⟨.punctuator .equalEqual, "==", 1⟩ ⟨.punctuator .bangEqual, "!=", 1⟩ rfl rfl .resolved s
    (.literal wideNumber) (.literal (.integer 9007199254740992))
  have truth : outcome = .ok true := (value _ _ s s rfl rfl).trans (congrArg _ back)
  rw [Session.evaluate_binary_of_ok rfl rfl] at equality
  obtain rfl : s = s' := congrArg Prod.snd equality
  rw [truth] at inequality equality
  rw [Session.evaluate_binary_of_ok rfl rfl]
  exact ⟨equality, inequality⟩

end ScopedExpr
