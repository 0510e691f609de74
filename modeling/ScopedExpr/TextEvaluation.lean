import ScopedExpr.BracketedForm
import ScopedExpr.Diagnostic

/-!
# From text to value

The stages on one text: tokens, one expression, its resolution outside of all blocks,
and its value. The first stage that fails gives the diagnostic.
-/

namespace ScopedExpr

def readTokens (text : String) : Except Diagnostic (List Token) :=
  (tokensOf text).mapError LexError.diagnostic

def readExpression (tokens : List Token) : Except Diagnostic Expr :=
  (Expr.ofTokens tokens).mapError ParseError.diagnostic

def Expr.ofText (text : String) : Except Diagnostic Expr := do
  readExpression (← readTokens text)

theorem Expr.ofText_of_tokens {text : String} {tokens : List Token}
    (scanned : tokensOf text = .ok tokens) : Expr.ofText text = readExpression tokens := by
  rw [Expr.ofText, readTokens, scanned]
  rfl

theorem Expr.ofText_of_lexError {text : String} {err : LexError}
    (failed : tokensOf text = .error err) : Expr.ofText text = .error err.diagnostic := by
  rw [Expr.ofText, readTokens, failed]
  rfl

theorem readExpression_of_ok {tokens : List Token} {e : Expr}
    (read : Expr.ofTokens tokens = .ok e) : readExpression tokens = .ok e := by
  rw [readExpression, read]
  rfl

theorem readExpression_of_error {tokens : List Token} {err : ParseError}
    (failed : Expr.ofTokens tokens = .error err) :
    readExpression tokens = .error err.diagnostic := by
  rw [readExpression, failed]
  rfl

/-- Evaluate the expression of a text in a session, without resolving it. -/
def Session.evaluateText (s : Session) (text : String) : Except Diagnostic Value × Session :=
  match Expr.ofText text with
  | .error d => (.error d, s)
  | .ok e =>
    let (result, s') := s.evaluate .resolved e
    (result.mapError EvalError.diagnostic, s')

/-- The value of an expression that is resolved outside of all blocks and evaluated in a
fresh session. -/
def Expr.value (e : Expr) : Except EvalError Value :=
  ((Session.start (Resolution.resolve {} e).locals).evaluate .resolved e).1

def evaluateText (text : String) : Except Diagnostic Value := do
  let e ← Expr.ofText text
  e.value.mapError EvalError.diagnostic

theorem evaluateText_of_ok {text : String} {e : Expr} (read : Expr.ofText text = .ok e) :
    evaluateText text = e.value.mapError EvalError.diagnostic := by
  rw [evaluateText, read]
  rfl

theorem evaluateText_of_error {text : String} {d : Diagnostic}
    (failed : Expr.ofText text = .error d) : evaluateText text = .error d := by
  rw [evaluateText, failed]
  rfl

/-- A text without a value has a fault of its characters, or else of its tokens, or else of
the evaluation of its tree. -/
theorem cases_of_evaluateText_error {text : String} {d : Diagnostic}
    (failed : evaluateText text = .error d) :
    (∃ err, tokensOf text = .error err ∧ d = err.diagnostic) ∨
    ∃ tokens, tokensOf text = .ok tokens ∧
      ((∃ err, Expr.ofTokens tokens = .error err ∧ d = err.diagnostic) ∨
        ∃ e err, Expr.ofTokens tokens = .ok e ∧ e.value = .error err ∧ d = err.diagnostic) := by
  cases scanned : tokensOf text with
  | error err =>
    rw [evaluateText_of_error (Expr.ofText_of_lexError scanned)] at failed
    exact .inl ⟨err, rfl, (Except.error.inj failed).symm⟩
  | ok tokens =>
    have tree := Expr.ofText_of_tokens scanned
    refine .inr ⟨tokens, rfl, ?_⟩
    cases read : Expr.ofTokens tokens with
    | error err =>
      rw [evaluateText_of_error (tree.trans (readExpression_of_error read))] at failed
      exact .inl ⟨err, rfl, (Except.error.inj failed).symm⟩
    | ok e =>
      rw [evaluateText_of_ok (tree.trans (readExpression_of_ok read))] at failed
      cases value : e.value with
      | ok v =>
        rw [value] at failed
        cases failed
      | error err =>
        rw [value] at failed
        exact .inr ⟨e, err, rfl, value, (Except.error.inj failed).symm⟩

def compareTexts (a b : String) : Except Diagnostic (Bool × Bool) := do
  let left ← readTokens a
  let right ← readTokens b
  let leftExpr ← readExpression left
  let rightExpr ← readExpression right
  return (Token.sameList left right, leftExpr.same rightExpr)

end ScopedExpr
