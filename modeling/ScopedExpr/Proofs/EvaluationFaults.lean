import ScopedExpr.Evaluation

/-!
# Faults that a tree can raise

When a tree is evaluated by name and fails, one of its nodes has raised the fault: a
reference to a name that nothing binds, an operator applied to its operands, or a property
or field of a value. What the session holds decides which of them, and no other comes.
-/

namespace ScopedExpr

/-- Whatever the session is, the faults of a computation are of this sort. -/
def Evaluating.Faults {α : Type} (P : EvalError → Prop) (x : Evaluating α) : Prop :=
  ∀ s err s', x.run s = .error err s' → P err

namespace Evaluating.Faults

variable {α β : Type} {P Q : EvalError → Prop} {x : Evaluating α} {f : α → Evaluating β}

theorem mono (h : Faults P x) (le : ∀ err, P err → Q err) : Faults Q x :=
  fun s err s' run => le err (h s err s' run)

theorem ofExcept {result : Except EvalError α} (h : ∀ err, result = .error err → P err) :
    Faults P (Evaluating.ofExcept result) := by
  intro s err s' run
  cases result with
  | ok a => cases run
  | error e =>
    cases run
    exact h _ rfl

theorem pure (a : α) : Faults P (Pure.pure a : Evaluating α) := by
  rintro s err s' ⟨⟩

theorem throw {err : EvalError} (h : P err) :
    Faults P (MonadExcept.throw err : Evaluating α) := by
  rintro s _ s' ⟨⟩
  exact h

theorem bind (first : Faults P x) (next : ∀ a, Faults P (f a)) : Faults P (x >>= f) := by
  intro s err s' run
  rw [EStateM.run_bind] at run
  cases hx : x.run s with
  | ok a s₁ =>
    rw [hx] at run
    exact next a s₁ err s' run
  | error e s₁ =>
    rw [hx] at run
    cases run
    exact first s _ _ hx

theorem read {id : Nat} {name : Token}
    (h : P (.runtime (.undefinedVariable name.lexeme) name.line)) :
    Faults P (Evaluating.read .dynamic id name) := by
  intro s err s' run
  rw [run_read] at run
  refine ofExcept (fun err failed => ?_) s err s' run
  have got : s.scopes.get s.active name.lexeme name.line = .error err := failed
  unfold ScopeTree.get at got
  split at got <;> cases got
  exact h

theorem write (id : Nat) (name : Token) (v : Value) :
    Faults P (Access.dynamic.write id name v) := by
  intro s err s' run
  cases run

end Evaluating.Faults

/-- The operators that numbers have, apart from equalities. -/
def TokenKind.IsArithmetic (k : TokenKind) : Prop :=
  k ∈ [.punctuator .greater, .punctuator .greaterEqual, .punctuator .less,
    .punctuator .lessEqual, .punctuator .minus, .punctuator .plus, .punctuator .star,
    .punctuator .slash]

/-- A fault that an operator has: on its line a fault of its operands, which is not that of a
variable, or for a kind of token that is no operator here the misuse of it. -/
inductive OperatorFault (known : TokenKind → Prop) (operator : Token) : EvalError → Prop where
  | operands {fault} (other : ∀ name, fault ≠ .undefinedVariable name) :
      OperatorFault known operator (.runtime fault operator.line)
  | misuse {fault} (unknown : ¬ known operator.kind) :
      OperatorFault known operator (.internal fault (some operator.line))

namespace OperatorFault

variable {known : TokenKind → Prop} {operator : Token} {err : EvalError} {a b : Value}

theorem of_exactInteger {n : Int} (h : exactInteger n operator.line = .error err) :
    OperatorFault known operator err := by
  unfold exactInteger at h
  split at h <;> cases h
  exact .operands nofun

theorem of_applyUnary (h : applyUnary operator a = .error err) :
    OperatorFault (fun k => k = .punctuator .bang ∨ k = .punctuator .minus ∨
      k = .keyword .notWord) operator err := by
  unfold applyUnary at h
  split at h
  · split at h
    · exact .of_exactInteger h
    · cases h
    · cases h
      exact .operands nofun
  · cases h
  · cases h
  · next notMinus notBang notNot =>
    cases h
    refine .misuse ?_
    rintro (bang | minus | word)
    · exact notBang bang
    · exact notMinus minus
    · exact notNot word

theorem of_applyNumbers {x y : Binary64} (h : applyNumbers operator x y = .error err) :
    OperatorFault TokenKind.IsArithmetic operator err := by
  unfold applyNumbers at h
  split at h
  case h_4 =>
    split at h <;> cases h
    exact .operands nofun
  case h_9 =>
    cases h
    refine .misuse ?_
    simp_all [TokenKind.IsArithmetic]
  all_goals cases h

theorem operandFault_ne_undefinedVariable (operator : Token) (a b : Value) (name : String) :
    operandFault operator a b ≠ .undefinedVariable name := by
  unfold operandFault
  split <;> exact nofun

theorem of_applyAsNumbers (h : applyAsNumbers operator a b = .error err) :
    OperatorFault TokenKind.IsArithmetic operator err := by
  unfold applyAsNumbers at h
  split at h
  · exact .of_applyNumbers h
  · cases h
    exact .operands (operandFault_ne_undefinedVariable operator a b)

theorem of_applyArithmetic (h : applyArithmetic operator a b = .error err) :
    OperatorFault TokenKind.IsArithmetic operator err := by
  unfold applyArithmetic at h
  split at h
  · split at h
    · cases h
    · exact .of_applyAsNumbers h
  · split at h
    · exact .of_exactInteger h
    · exact .of_applyAsNumbers h
  · exact .of_applyAsNumbers h

/-- Equalities have no faults, and all else is arithmetic. -/
theorem of_applyBinary (h : applyBinary operator a b = .error err) :
    OperatorFault TokenKind.IsArithmetic operator err ∧
      operator.kind ≠ .punctuator .equalEqual ∧ operator.kind ≠ .punctuator .bangEqual := by
  unfold applyBinary at h
  split at h
  · cases h
  · cases h
  · next notEqual notUnequal => exact ⟨.of_applyArithmetic h, notEqual, notUnequal⟩

end OperatorFault

namespace Expr

/-- A node of the tree has the fault for some values of its operands. -/
inductive Raises (err : EvalError) : Expr → Prop where
  | grouping {e} (inner : Raises err e) : Raises err (.grouping e)
  | undefined {id name} (is : err = .runtime (.undefinedVariable name.lexeme) name.line) :
      Raises err (.reference id name)
  | assign {id name v} (value : Raises err v) : Raises err (.assign id name v)
  | get {o name} (object : Raises err o) : Raises err (.get o name)
  | noProperties {o name} (is : err = .runtime .noProperties name.line) :
      Raises err (.get o name)
  | set {o name v} (object : Raises err o) : Raises err (.set o name v)
  | noFields {o name v} (is : err = .runtime .noFields name.line) : Raises err (.set o name v)
  | unary {operator e} (operand : Raises err e) : Raises err (.unary operator e)
  | unaryOperator {operator e v} (failed : applyUnary operator v = .error err) :
      Raises err (.unary operator e)
  | binaryLeft {l operator r} (left : Raises err l) : Raises err (.binary l operator r)
  | binaryRight {l operator r} (right : Raises err r) : Raises err (.binary l operator r)
  | binaryOperator {l operator r a b} (failed : applyBinary operator a b = .error err) :
      Raises err (.binary l operator r)
  | logicalLeft {l operator r} (left : Raises err l) : Raises err (.logical l operator r)
  | logicalRight {l operator r} (right : Raises err r) : Raises err (.logical l operator r)

/-- By name, a tree that fails ends in a fault that it raises. -/
theorem faults_evaluate (e : Expr) :
    (e.evaluate .dynamic).Faults fun err => e.Raises err := by
  induction e with
  | literal v => exact .pure v
  | grouping e ih => exact ih.mono fun _ => .grouping
  | reference id name => exact .read (.undefined rfl)
  | assign id name value ih =>
    refine (ih.mono fun _ => .assign).bind fun v => ?_
    exact (Evaluating.Faults.write id name v).bind fun _ => .pure v
  | get object name ih =>
    exact (ih.mono fun _ => .get).bind fun _ => .throw (.noProperties rfl)
  | set object name value ih _ =>
    exact (ih.mono fun _ => .set).bind fun _ => .throw (.noFields rfl)
  | unary operator operand ih =>
    exact (ih.mono fun _ => .unary).bind fun v => .ofExcept fun _ => .unaryOperator
  | binary left operator right ihl ihr =>
    refine (ihl.mono fun _ => .binaryLeft).bind fun a => ?_
    exact (ihr.mono fun _ => .binaryRight).bind fun b => .ofExcept fun _ => .binaryOperator
  | logical left operator right ihl ihr =>
    refine (ihl.mono fun _ => .logicalLeft).bind fun a => ?_
    by_cases decides : decidesLogical operator a
    · simp only [decides, if_true]
      exact .pure a
    · simp only [decides]
      exact ihr.mono fun _ => .logicalRight

end Expr

end ScopedExpr
