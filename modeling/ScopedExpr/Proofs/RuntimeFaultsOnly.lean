import ScopedExpr.Proofs.EvaluationFaults
import ScopedExpr.Proofs.ExpressionRecognition
import ScopedExpr.Proofs.TwoPassRefinement

/-!
# Expressions that are read have runtime faults only

The operators of a well-formed tree are those that their nodes know, and a reference that
is accessed by name never leaves the chain of scopes. So a tree that is read from tokens
never ends in an internal fault, by name and therefore by distance; in a program, only the
end of a block that is not open can.
-/

namespace ScopedExpr

namespace Expr

def logicalOperators : Expr → List Token
  | literal _ | reference _ _ => []
  | grouping e => e.logicalOperators
  | assign _ _ value => value.logicalOperators
  | get object _ => object.logicalOperators
  | set object _ value => object.logicalOperators ++ value.logicalOperators
  | unary _ operand => operand.logicalOperators
  | binary left _ right => left.logicalOperators ++ right.logicalOperators
  | logical left operator right => operator :: left.logicalOperators ++ right.logicalOperators

end Expr

theorem TokenKind.logical_of_precedence? {k : TokenKind} {p : Nat} (is : k.precedence? = some p)
    (loose : p ≤ 2) : k = .keyword .orWord ∨ k = .keyword .andWord := by
  unfold precedence? at is
  split at is <;> cases is <;> simp_all

/-- An operator that joins two operands to a value of its own is arithmetic or an equality. -/
theorem TokenKind.isArithmetic_of_precedence? {k : TokenKind} {p : Nat}
    (is : k.precedence? = some p) (tight : 2 < p) (notEqual : k ≠ .punctuator .equalEqual)
    (notUnequal : k ≠ .punctuator .bangEqual) : k.IsArithmetic := by
  unfold precedence? at is
  split at is <;> cases is <;> simp_all [IsArithmetic]

theorem Expr.WellFormed.logicalOperators {e : Expr} (wf : e.WellFormed) :
    ∀ operator ∈ e.logicalOperators,
      operator.kind = .keyword .orWord ∨ operator.kind = .keyword .andWord := by
  intro operator mem
  induction e with
  | literal | reference => cases mem
  | grouping e ih => exact ih wf mem
  | assign id name value ih => exact ih wf.2 mem
  | get object name ih => exact ih wf.2.1 mem
  | set object name value ihObject ihValue =>
    obtain ⟨-, objectFormed, -, valueFormed⟩ := wf
    rcases List.mem_append.1 mem with mem | mem
    · exact ihObject objectFormed mem
    · exact ihValue valueFormed mem
  | unary op operand ih => exact ih wf.2.2 mem
  | binary left op right ihl ihr =>
    obtain ⟨p, -, -, -, -, leftFormed, rightFormed⟩ := wf
    rcases List.mem_append.1 mem with mem | mem
    · exact ihl leftFormed mem
    · exact ihr rightFormed mem
  | logical left op right ihl ihr =>
    obtain ⟨p, is, loose, -, -, leftFormed, rightFormed⟩ := wf
    rcases List.mem_append.1 mem with mem | mem
    · rcases List.mem_cons.1 mem with rfl | mem
      · exact TokenKind.logical_of_precedence? is loose
      · exact ihl leftFormed mem
    · exact ihr rightFormed mem

namespace EvalError

def IsRuntime : EvalError → Prop
  | runtime _ _ => True
  | internal _ _ => False

end EvalError

/-- The result is a value or a runtime fault. -/
def FaultsAtRuntime {α : Type} (result : Except EvalError α) : Prop :=
  ∀ err, result = .error err → err.IsRuntime

theorem OperatorFault.isRuntime {known : TokenKind → Prop} {operator : Token} {err : EvalError}
    (h : OperatorFault known operator err) (is : known operator.kind) : err.IsRuntime := by
  cases h with
  | operands _ => trivial
  | misuse unknown => exact absurd is unknown

def Evaluating.Safe {α : Type} (x : Evaluating α) : Prop :=
  ∀ s err s', x.run s = .error err s' → err.IsRuntime

theorem Expr.WellFormed.isRuntime_of_raises {e : Expr} {err : EvalError} (wf : e.WellFormed)
    (h : e.Raises err) : err.IsRuntime := by
  induction h with
  | grouping _ ih => exact ih wf
  | assign _ ih => exact ih wf.2
  | get _ ih | set _ ih => exact ih wf.2.1
  | unary _ ih => exact ih wf.2.2
  | undefined is | noProperties is | noFields is =>
    rw [is]
    trivial
  | unaryOperator failed => exact (OperatorFault.of_applyUnary failed).isRuntime wf.1
  | binaryOperator failed =>
    obtain ⟨p, is, tight, -⟩ := wf
    obtain ⟨fault, notEqual, notUnequal⟩ := OperatorFault.of_applyBinary failed
    exact fault.isRuntime (TokenKind.isArithmetic_of_precedence? is tight notEqual notUnequal)
  | binaryLeft _ ih | logicalLeft _ ih =>
    obtain ⟨p, -, -, -, -, left, -⟩ := wf
    exact ih left
  | binaryRight _ ih | logicalRight _ ih =>
    obtain ⟨p, -, -, -, -, -, right⟩ := wf
    exact ih right

/-- By name, a tree of the grammar has runtime faults only. -/
theorem Expr.WellFormed.safe_evaluate {e : Expr} (wf : e.WellFormed) :
    (e.evaluate .dynamic).Safe :=
  e.faults_evaluate.mono fun _ => wf.isRuntime_of_raises

def Diagnostic.IsInternal : Diagnostic → Prop
  | internal _ _ => True
  | _ => False

theorem EvalError.IsRuntime.diagnostic {err : EvalError} (h : err.IsRuntime) :
    ¬ err.diagnostic.IsInternal := by
  cases err with
  | runtime fault line => exact id
  | internal fault line => exact absurd h id

/-- Outside of all blocks, nothing gets a distance. -/
theorem Resolution.locals_resolve_outside {r : Resolution} (outside : r.blocks = []) (e : Expr) :
    (r.resolve e).locals = r.locals := by
  induction e generalizing r with
  | literal v => rfl
  | grouping e ih | get e _ ih | unary _ e ih => exact ih outside
  | reference id name => simp [resolve, resolveReference, distance?, outside]
  | assign id name v ih =>
    have none : (r.resolve v).distance? name.lexeme = none := by
      simp [distance?, outside]
    rw [resolve, resolveReference, none]
    exact ih outside
  | set a _ b iha ihb | binary a _ b iha ihb | logical a _ b iha ihb =>
    have still : (r.resolve a).blocks = [] := by rw [blocks_resolve, outside]
    exact (ihb still).trans (iha outside)

/-- Resolved outside of all blocks, a tree that fails ends in a fault that it raises. -/
theorem Expr.raises_of_value {e : Expr} {err : EvalError} (failed : e.value = .error err) :
    e.Raises err := by
  have noted : e.Noted (Resolution.resolve {} e).locals [] := by
    intro id name mem
    rw [Resolution.locals_resolve_outside rfl]
    rfl
  have agrees := Expr.agrees_evaluate noted _ (Session.follows_start _)
  have run := Session.evaluate_eq_error_iff.1 (Prod.ext failed rfl)
  rw [run] at agrees
  exact e.faults_evaluate _ _ _ agrees.1

theorem Expr.WellFormed.faultsAtRuntime_value {e : Expr} (wf : e.WellFormed) :
    FaultsAtRuntime e.value :=
  fun _ failed => wf.isRuntime_of_raises (Expr.raises_of_value failed)

/-- A text gives a tree of the grammar, or a diagnostic of its characters or tokens. -/
theorem Expr.ofText_cases (text : String) :
    (∃ e, Expr.ofText text = .ok e ∧ e.WellFormed) ∨
      ∃ d, Expr.ofText text = .error d ∧ ¬ d.IsInternal := by
  cases scanned : tokensOf text with
  | error err => exact .inr ⟨err.diagnostic, Expr.ofText_of_lexError scanned, id⟩
  | ok tokens =>
    rw [Expr.ofText_of_tokens scanned]
    cases parsed : Expr.ofTokens tokens with
    | error err => exact .inr ⟨err.diagnostic, readExpression_of_error parsed, id⟩
    | ok e => exact .inl ⟨e, readExpression_of_ok parsed, (readable_of_ofTokens parsed).1⟩

theorem not_isInternal_of_evaluateText {text : String} {d : Diagnostic}
    (failed : evaluateText text = .error d) : ¬ d.IsInternal := by
  obtain ⟨err, -, rfl⟩ | ⟨tokens, -, ⟨err, -, rfl⟩ | ⟨e, err, read, value, rfl⟩⟩ :=
    cases_of_evaluateText_error failed
  · exact id
  · exact id
  · exact ((readable_of_ofTokens read).1.faultsAtRuntime_value err value).diagnostic

/-- One action for each step; those of expressions evaluate trees of the grammar. -/
theorem prepare_cons (step : Step) (steps : List Step) (reader : TokenReader) (r : Resolution) :
    ∃ action reader' r', (prepare (step :: steps) reader r).1 =
        action :: (prepare steps reader' r').1 ∧
      (step = .expression → ∃ read, action = .evaluate read) ∧
      ∀ e, action = .evaluate (.ok e) → e.WellFormed := by
  cases step with
  | openBlock => exact ⟨_, reader, r.openBlock, rfl, nofun, nofun⟩
  | closeBlock => exact ⟨_, reader, r.closeBlock, rfl, nofun, nofun⟩
  | define name value => exact ⟨_, reader, r.declare name, rfl, nofun, nofun⟩
  | expression =>
    rcases h : reader.attempt Reading.expression with ⟨read, reader'⟩
    simp only [prepare, h]
    refine ⟨_, _, _, rfl, fun _ => ⟨read, rfl⟩, ?_⟩
    rintro e ⟨⟩
    exact (Reading.reads_expression (TokenReader.attempt_eq_ok_iff.1 h)).1.wellFormed

theorem getElem?_prepare {steps : List Step} {i : Nat} (h : steps[i]? = some .expression)
    (reader : TokenReader) (r : Resolution) :
    ∃ read, (prepare steps reader r).1[i]? = some (.evaluate read) := by
  induction steps generalizing i reader r with
  | nil => cases h
  | cons step steps ih =>
    obtain ⟨action, reader', r', actions, evaluates, -⟩ := prepare_cons step steps reader r
    rw [actions]
    cases i with
    | zero =>
      obtain ⟨read, rfl⟩ := evaluates (Option.some.inj h)
      exact ⟨read, rfl⟩
    | succ i => exact ih h reader' r'

theorem wellFormed_of_mem_prepare {steps : List Step} {reader : TokenReader} {r : Resolution}
    {e : Expr} (mem : .evaluate (.ok e) ∈ (prepare steps reader r).1) : e.WellFormed := by
  induction steps generalizing reader r with
  | nil => cases mem
  | cons step steps ih =>
    obtain ⟨action, reader', r', actions, -, wf⟩ := prepare_cons step steps reader r
    rw [actions] at mem
    rcases List.mem_cons.1 mem with rfl | mem
    · exact wf e rfl
    · exact ih mem

namespace Session

theorem getElem?_perform {actions : List Action} {action : Action} {i : Nat} (access : Access)
    (s : Session) (h : actions[i]? = some action) :
    ∃ before : Session, (s.perform access actions)[i]? = some (before.act access action) := by
  induction actions generalizing s i with
  | nil => cases h
  | cons first actions ih =>
    cases i with
    | zero =>
      cases h
      exact ⟨s, rfl⟩
    | succ i => exact ih _ h

theorem act_evaluate_not_internal {s : Session} {read : Except ParseError Expr} {d : Diagnostic}
    (wf : ∀ e, read = .ok e → e.WellFormed)
    (failed : (s.act .dynamic (.evaluate read)).1 = .failed d) : ¬ d.IsInternal := by
  cases read with
  | error err =>
    cases failed
    exact id
  | ok e =>
    rcases result : s.evaluate .dynamic e with ⟨err | v, s'⟩
    · simp only [act, result] at failed
      cases failed
      exact ((wf e rfl).safe_evaluate _ _ _ (evaluate_eq_error_iff.1 result)).diagnostic
    · simp only [act, result] at failed
      cases failed

end Session

/-- The outcome of an expression of a program is no internal fault. -/
theorem outcome_of_expression {steps : List Step} {i : Nat} (h : steps[i]? = some .expression)
    (tokens : List Token) :
    ∃ outcome s, (runProgram .resolved tokens steps).2[i]? = some (outcome, s) ∧
      ∀ d, outcome = .failed d → ¬ d.IsInternal := by
  have fresh : ({} : Resolution).FreshFrom (TokenReader.ofTokens tokens).nextId :=
    fun _ _ => Table.find?_empty _
  have same := Session.perform_prepare steps fresh (Session.follows_start _)
  obtain ⟨read, action⟩ := getElem?_prepare h (.ofTokens tokens) {}
  obtain ⟨before, byName⟩ := Session.getElem?_perform .dynamic (Session.start .empty) action
  have wf : ∀ e, read = .ok e → e.WellFormed := by
    rintro e rfl
    exact wellFormed_of_mem_prepare (List.mem_of_getElem? action)
  rw [show (Session.start .empty).perform .dynamic _ = _ from same.symm, List.getElem?_map,
    Option.map_eq_some_iff] at byName
  obtain ⟨⟨outcome, s⟩, place, outcomes⟩ := byName
  refine ⟨outcome, s, place, fun d failed => ?_⟩
  apply Session.act_evaluate_not_internal (s := before) wf
  rw [← outcomes]
  exact failed

/-- What is read from a text never ends in an internal fault: not the expression of a text,
and no expression of a program. All logical operators are disjunctions and conjunctions. -/
theorem read_expressions_never_internal :
    (∀ text line message, evaluateText text ≠ .error (.internal line message)) ∧
    (∀ (tokens : List Token) (steps : List Step) (i : Nat), steps[i]? = some .expression →
      ∃ (outcome : Outcome) (s : Session),
        (runProgram .resolved tokens steps).2[i]? = some (outcome, s) ∧
          ∀ line message, outcome ≠ .failed (.internal line message)) ∧
    (∀ text e, Expr.ofText text = .ok e → ∀ operator ∈ e.logicalOperators,
      operator.kind ≠ .keyword .orWord → operator.kind = .keyword .andWord) ∧
    ∀ tokens steps e, Action.evaluate (.ok e) ∈ (prepare steps (.ofTokens tokens) {}).1 →
      ∀ operator ∈ e.logicalOperators,
        operator.kind ≠ .keyword .orWord → operator.kind = .keyword .andWord := by
  refine ⟨fun text line message failed => ?_, fun tokens steps i h => ?_,
    fun text e read operator mem other => ?_, fun tokens steps e read operator mem other => ?_⟩
  · exact not_isInternal_of_evaluateText failed trivial
  · obtain ⟨outcome, s, place, other⟩ := outcome_of_expression h tokens
    exact ⟨outcome, s, place, fun line message failed => other _ failed trivial⟩
  · obtain ⟨e', read', wf⟩ | ⟨d, failed, -⟩ := Expr.ofText_cases text
    · obtain rfl := Except.ok.inj (read.symm.trans read')
      exact (wf.logicalOperators operator mem).resolve_left other
    · rw [read] at failed
      cases failed
  · exact ((wellFormed_of_mem_prepare read).logicalOperators operator mem).resolve_left other

/-- The tokens of `a and -"b"`: with a true `a`, the negation fails. -/
def negatedText : List Token :=
  [⟨.identifier, "a", 1⟩, ⟨.keyword .andWord, "and", 1⟩, ⟨.punctuator .minus, "-", 1⟩,
    ⟨.string "b", "\"b\"", 1⟩]

def negatedTextSteps : List Step := [.openBlock, .define "a" (.bool true), .expression]

def negatedTextTree : Expr :=
  .logical (.reference 0 ⟨.identifier, "a", 1⟩) ⟨.keyword .andWord, "and", 1⟩
    (.unary ⟨.punctuator .minus, "-", 1⟩ (.literal (.text "b")))

theorem negatedText_never_internal :
    (∃ (outcome : Outcome) (s : Session),
      (runProgram .resolved negatedText negatedTextSteps).2[2]? = some (outcome, s) ∧
        ∀ line message, outcome ≠ .failed (.internal line message)) ∧
    Action.evaluate (.ok negatedTextTree) ∈
      (prepare negatedTextSteps (.ofTokens negatedText) {}).1 ∧
    ∀ operator ∈ negatedTextTree.logicalOperators, operator.kind ≠ .keyword .orWord →
      operator.kind = .keyword .andWord := by
  have read : (prepare negatedTextSteps (.ofTokens negatedText) {}).1[2]? =
      some (.evaluate (.ok negatedTextTree)) := rfl
  refine ⟨?_, List.mem_of_getElem? read, ?_⟩
  · exact read_expressions_never_internal.2.1 negatedText negatedTextSteps 2 rfl
  · exact read_expressions_never_internal.2.2.2 negatedText negatedTextSteps negatedTextTree
      (List.mem_of_getElem? read)

end ScopedExpr
