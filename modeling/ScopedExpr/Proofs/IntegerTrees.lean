import ScopedExpr.Evaluation

/-!
# Trees of integers

A tree of integers, brackets, minus signs, sums, differences and products has an exact value,
however large. Where the values of all its subtrees have 64 bits the tree is evaluated to that
value. Else the first subtree whose value has not, operands before their operator, ends the
evaluation with an overflow on the line of its operator.
-/

namespace ScopedExpr

def FitsInt64 (n : Int) : Prop := -(twoPow 63 : Int) ≤ n ∧ n < twoPow 63

instance (n : Int) : Decidable (FitsInt64 n) := inferInstanceAs (Decidable (_ ∧ _))

/-- The operators that keep to the integers, with what they do there. -/
inductive IntegerOperator : TokenKind → (Int → Int → Int) → Prop where
  | sum : IntegerOperator (.punctuator .plus) fun m n => m + n
  | difference : IntegerOperator (.punctuator .minus) fun m n => m - n
  | product : IntegerOperator (.punctuator .star) fun m n => m * n

theorem IntegerOperator.unique {k : TokenKind} {f g : Int → Int → Int}
    (hf : IntegerOperator k f) (hg : IntegerOperator k g) : f = g := by
  cases hf <;> cases hg <;> rfl

/-- An operator of the integers computes exactly and then checks the size. -/
theorem IntegerOperator.applyBinary {operator : Token} {f : Int → Int → Int}
    (is : IntegerOperator operator.kind f) (a b : Int64) :
    applyBinary operator (.integer a) (.integer b) =
      exactInteger (f a.toInt b.toInt) operator.line := by
  obtain ⟨kind, lexeme, line⟩ := operator
  cases is <;> rfl

theorem applyUnary_minus {operator : Token} (is : operator.kind = .punctuator .minus) (a : Int64) :
    applyUnary operator (.integer a) = exactInteger (-a.toInt) operator.line := by
  rw [applyUnary, is]

theorem exactInteger_of_fits {n : Int} (fits : FitsInt64 n) (line : Nat) :
    exactInteger n line = .ok (.integer (Int64.ofInt n)) := by
  have within : Int64.minValue.toInt ≤ n ∧ n ≤ Int64.maxValue.toInt :=
    ⟨fits.1, Int.le_of_lt_add_one fits.2⟩
  rw [exactInteger, int64?, if_pos within]

theorem exactInteger_of_not_fits {n : Int} (large : ¬ FitsInt64 n) (line : Nat) :
    exactInteger n line = .error (.runtime .integerOverflow line) := by
  have outside : ¬ (Int64.minValue.toInt ≤ n ∧ n ≤ Int64.maxValue.toInt) :=
    fun within => large ⟨within.1, Int.lt_add_one_of_le within.2⟩
  rw [exactInteger, int64?, if_neg outside]

theorem toInt_ofInt_of_fits {n : Int} (fits : FitsInt64 n) : (Int64.ofInt n).toInt = n :=
  Int64.toInt_ofInt_of_le fits.1 fits.2

theorem fitsInt64_toInt (n : Int64) : FitsInt64 n.toInt :=
  ⟨n.minValue_le_toInt, Int.lt_add_one_of_le n.toInt_le⟩

namespace Expr

inductive HasIntegerValue : Expr → Int → Prop where
  | literal (n : Int64) : HasIntegerValue (.literal (.integer n)) n.toInt
  | grouping {e n} (inner : HasIntegerValue e n) : HasIntegerValue (.grouping e) n
  | negation {operator e n} (is : operator.kind = .punctuator .minus)
      (operand : HasIntegerValue e n) : HasIntegerValue (.unary operator e) (-n)
  | operation {l operator r f m n} (is : IntegerOperator operator.kind f)
      (left : HasIntegerValue l m) (right : HasIntegerValue r n) :
      HasIntegerValue (.binary l operator r) (f m n)

/-- All subtrees, each behind its own subtrees and those of a left operand first. -/
def postorder : Expr → List Expr
  | e@(.literal _) => [e]
  | e@(.reference _ _) => [e]
  | e@(.grouping inner) => inner.postorder ++ [e]
  | e@(.assign _ _ value) => value.postorder ++ [e]
  | e@(.get object _) => object.postorder ++ [e]
  | e@(.set object _ value) => object.postorder ++ value.postorder ++ [e]
  | e@(.unary _ operand) => operand.postorder ++ [e]
  | e@(.binary left _ right) => left.postorder ++ right.postorder ++ [e]
  | e@(.logical left _ right) => left.postorder ++ right.postorder ++ [e]

def operator? : Expr → Option Token
  | .unary operator _ => some operator
  | .binary _ operator _ => some operator
  | .logical _ operator _ => some operator
  | _ => none

def AllFit (es : List Expr) : Prop := ∀ e ∈ es, ∀ n, e.HasIntegerValue n → FitsInt64 n

/-- The first of the expressions with too large a value has the operator. -/
def FirstOverflow (es : List Expr) (operator : Token) : Prop :=
  ∃ before e after n, es = before ++ e :: after ∧ AllFit before ∧ e.HasIntegerValue n ∧
    ¬ FitsInt64 n ∧ e.operator? = some operator

theorem HasIntegerValue.unique {e : Expr} {m n : Int} (hm : e.HasIntegerValue m)
    (hn : e.HasIntegerValue n) : m = n := by
  induction hm generalizing n with
  | literal i =>
    cases hn
    rfl
  | grouping _ ih =>
    cases hn with
    | grouping inner => exact ih inner
  | negation _ _ ih =>
    cases hn with
    | negation _ operand => rw [ih operand]
  | operation is _ _ ihl ihr =>
    cases hn with
    | operation is' left right => rw [is.unique is', ihl left, ihr right]

theorem mem_postorder_self (e : Expr) : e ∈ e.postorder := by
  cases e <;> simp [postorder]

section Lists

variable {es more : List Expr} {e : Expr} {n : Int} {operator : Token}

theorem AllFit.append (front : AllFit es) (behind : AllFit more) : AllFit (es ++ more) :=
  List.forall_mem_append.2 ⟨front, behind⟩

theorem AllFit.concat (front : AllFit es) (value : e.HasIntegerValue n) (fits : FitsInt64 n) :
    AllFit (es ++ [e]) := by
  refine front.append fun f mem m value' => ?_
  rw [List.mem_singleton.1 mem] at value'
  rwa [← value.unique value']

theorem AllFit.fits (all : AllFit e.postorder) (value : e.HasIntegerValue n) : FitsInt64 n :=
  all e e.mem_postorder_self n value

theorem FirstOverflow.append (h : FirstOverflow es operator) (more : List Expr) :
    FirstOverflow (es ++ more) operator := by
  obtain ⟨before, f, after, m, rfl, rest⟩ := h
  exact ⟨before, f, after ++ more, m, by simp, rest⟩

theorem FirstOverflow.behind (front : AllFit es) (h : FirstOverflow more operator) :
    FirstOverflow (es ++ more) operator := by
  obtain ⟨before, f, after, m, rfl, fit, rest⟩ := h
  exact ⟨es ++ before, f, after, m, by simp, front.append fit, rest⟩

theorem FirstOverflow.last (front : AllFit es) (value : e.HasIntegerValue n)
    (large : ¬ FitsInt64 n) (is : e.operator? = some operator) :
    FirstOverflow (es ++ [e]) operator :=
  ⟨es, e, [], n, rfl, front, value, large, is⟩

theorem FirstOverflow.not_allFit (h : FirstOverflow es operator) : ¬ AllFit es := by
  obtain ⟨before, f, after, m, rfl, -, value, large, -⟩ := h
  exact fun all => large (all f (by simp) m value)

end Lists

/-- All subtrees fit and the tree is evaluated to the value, or the first one that does not
ends the evaluation, in every session. -/
def ExactOrOverflow (e : Expr) (n : Int) : Prop :=
  (AllFit e.postorder ∧
    ∀ access s, Session.evaluate access s e = (.ok (.integer (Int64.ofInt n)), s)) ∨
  ∃ operator, FirstOverflow e.postorder operator ∧
    ∀ access s, Session.evaluate access s e = (.error (.runtime .integerOverflow operator.line), s)

section Evaluation

variable {e l r : Expr} {n : Int} {operator : Token}

/-- An operator whose operands fit decides by its own value. -/
theorem exactOrOverflow_of_operands {operands : List Expr} (fit : AllFit operands)
    (order : e.postorder = operands ++ [e]) (value : e.HasIntegerValue n)
    (is : e.operator? = some operator)
    (run : ∀ access s, Session.evaluate access s e = (exactInteger n operator.line, s)) :
    e.ExactOrOverflow n := by
  by_cases fits : FitsInt64 n
  · left
    rw [order]
    refine ⟨fit.concat value fits, fun access s => ?_⟩
    rw [run, exactInteger_of_fits fits]
  · right
    rw [order]
    refine ⟨operator, .last fit value fits is, fun access s => ?_⟩
    rw [run, exactInteger_of_not_fits fits]

theorem HasIntegerValue.exactOrOverflow (h : e.HasIntegerValue n) : e.ExactOrOverflow n := by
  induction h with
  | literal i =>
    refine .inl ⟨?_, fun access s => ?_⟩
    · have nothing : AllFit [] := fun f mem => absurd mem List.not_mem_nil
      exact nothing.concat (.literal i) (fitsInt64_toInt i)
    · rw [Int64.ofInt_toInt]
      rfl
  | @grouping inner n value ih =>
    obtain ⟨fit, run⟩ | ⟨operator, first, run⟩ := ih
    · exact .inl ⟨fit.concat (.grouping value) (fit.fits value), run⟩
    · exact .inr ⟨operator, first.append _, run⟩
  | @negation operator operand n is value ih =>
    obtain ⟨fit, run⟩ | ⟨first, overflow, run⟩ := ih
    · refine exactOrOverflow_of_operands fit rfl (.negation is value) rfl fun access s => ?_
      rw [Session.evaluate_unary_of_ok (run access s), applyUnary_minus is,
        toInt_ofInt_of_fits (fit.fits value)]
    · refine .inr ⟨first, overflow.append _, fun access s => ?_⟩
      rw [Session.evaluate_unary_of_error (run access s)]
  | @operation l operator r f m n is left right ihl ihr =>
    obtain ⟨fitL, runL⟩ | ⟨first, overflow, run⟩ := ihl
    · obtain ⟨fitR, runR⟩ | ⟨first, overflow, run⟩ := ihr
      · refine exactOrOverflow_of_operands (fitL.append fitR) rfl (.operation is left right) rfl
          fun access s => ?_
        rw [Session.evaluate_binary_of_ok (runL access s) (runR access s), is.applyBinary,
          toInt_ofInt_of_fits (fitL.fits left), toInt_ofInt_of_fits (fitR.fits right)]
      · refine .inr ⟨first, (overflow.behind fitL).append _, fun access s => ?_⟩
        rw [Session.evaluate_binary_of_error_right (runL access s) (run access s)]
    · refine .inr ⟨first, ?_, fun access s => ?_⟩
      · exact (overflow.append _).append _
      · rw [Session.evaluate_binary_of_error_left (run access s)]

end Evaluation

/-- A tree of integers is evaluated to its exact value as an integer when the values of all
subtrees have 64 bits, and else to an overflow on the line of the first operator, operands
before their operator, whose value has not. The session stays as it is. -/
theorem integer_tree_exact_or_overflow {e : Expr} {n : Int} (h : e.HasIntegerValue n) :
    (AllFit e.postorder → ∃ i : Int64, i.toInt = n ∧
      ∀ access s, Session.evaluate access s e = (.ok (.integer i), s)) ∧
    (¬ AllFit e.postorder → ∃ operator, FirstOverflow e.postorder operator ∧
      RuntimeFault.integerOverflow.message = "Integer overflow." ∧
      ∀ access s,
        Session.evaluate access s e = (.error (.runtime .integerOverflow operator.line), s)) := by
  obtain ⟨fit, run⟩ | ⟨operator, first, run⟩ := h.exactOrOverflow
  · exact ⟨fun _ => ⟨_, toInt_ofInt_of_fits (fit.fits h), run⟩, fun large => absurd fit large⟩
  · exact ⟨fun fit => absurd fit first.not_allFit, fun _ => ⟨operator, first, rfl, run⟩⟩

/-- `-9223372036854775807 - 1`, the least integer. -/
def leastByDifference : Expr :=
  .binary (.unary ⟨.punctuator .minus, "-", 1⟩ (.literal (.integer Int64.maxValue)))
    ⟨.punctuator .minus, "-", 1⟩ (.literal (.integer 1))

/-- A sum on line 1 of the least integer negated on line 2 and a large product on line 3. -/
def overflowingSum : Expr :=
  .binary (.unary ⟨.punctuator .minus, "-", 2⟩ (.literal (.integer Int64.minValue)))
    ⟨.punctuator .plus, "+", 1⟩
    (.binary (.literal (.integer Int64.maxValue)) ⟨.punctuator .star, "*", 3⟩
      (.literal (.integer 2)))

/-- The difference reaches the least integer. Of three overflows the negation is the one told. -/
theorem integer_tree_at_least_integer :
    (∃ i : Int64, i.toInt = -9223372036854775808 ∧
      Session.evaluate .dynamic (.start .empty) leastByDifference =
        (.ok (.integer i), .start .empty)) ∧
    ∃ operator, FirstOverflow overflowingSum.postorder operator ∧ operator.line = 2 ∧
      Session.evaluate .dynamic (.start .empty) overflowingSum =
        (.error (.runtime .integerOverflow 2), .start .empty) := by
  have negated : (unary ⟨.punctuator .minus, "-", 1⟩
      (.literal (.integer Int64.maxValue))).HasIntegerValue (-Int64.maxValue.toInt) :=
    .negation rfl (.literal _)
  have difference : leastByDifference.HasIntegerValue (-Int64.maxValue.toInt - 1) :=
    .operation .difference negated (.literal 1)
  have fit : AllFit leastByDifference.postorder := by
    have nothing : AllFit [] := fun f mem => absurd mem List.not_mem_nil
    have front := (nothing.concat (.literal Int64.maxValue) (fitsInt64_toInt _)).concat negated
      (by decide)
    exact (front.append (nothing.concat (.literal 1) (fitsInt64_toInt _))).concat difference
      (by decide)
  have sum : overflowingSum.HasIntegerValue
      (-Int64.minValue.toInt + Int64.maxValue.toInt * Int64.toInt 2) :=
    .operation .sum (.negation rfl (.literal _)) (.operation .product (.literal _) (.literal 2))
  have large : ¬ AllFit overflowingSum.postorder := by
    refine fun all => absurd (all.fits sum) (by decide)
  obtain ⟨i, value, run⟩ := (integer_tree_exact_or_overflow difference).1 fit
  obtain ⟨operator, first, -, overflow⟩ := (integer_tree_exact_or_overflow sum).2 large
  have told : Session.evaluate .dynamic (.start .empty) overflowingSum =
      (.error (.runtime .integerOverflow 2), .start .empty) := rfl
  have line : operator.line = 2 := by
    have same := (overflow .dynamic (.start .empty)).symm.trans told
    rw [Prod.mk.injEq, Except.error.injEq] at same
    injection same.1
  exact ⟨⟨i, value, run _ _⟩, operator, first, line, told⟩

end Expr

end ScopedExpr
