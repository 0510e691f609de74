import ScopedExpr.ExpressionTree

/-!
# Reading expressions by precedence

An expression is an assignment, or operands joined by operators of six levels of
precedence; an operand is a unary operator with its operand, or a primary expression
with properties. All levels are one rule, applied to a table of levels.

Two bounds of `maxNesting` hold: on the entries into the rules for assignments and
operands that are open at once, and on the height of the tree. The rules recurse on
the number of entries that are still allowed.
-/

namespace ScopedExpr

/-- The bound on open rule entries and on the height of trees. -/
def maxNesting : Nat := 1024

inductive ParseFault where
  | expressionExpected
  | closingParenExpected
  | propertyNameExpected
  | endExpected
  | invalidTarget
  | nestedTooDeeply
deriving DecidableEq

def ParseFault.message : ParseFault → String
  | expressionExpected => "Expect expression."
  | closingParenExpected => "Expect ')' after expression."
  | propertyNameExpected => "Expect property name after '.'."
  | endExpected => "Expect end of expression."
  | invalidTarget => "Invalid assignment target."
  | nestedTooDeeply => "Expression nested too deeply."

structure ParseError where
  fault : ParseFault
  token : Token
deriving DecidableEq

/-- The tokens that are left, the token that ends them, and the number of the next
reference. -/
structure TokenReader where
  rest : List Token
  stop : Token
  nextId : Nat

namespace TokenReader

def isCode (t : Token) : Bool :=
  match t.kind with
  | .comment _ => false
  | _ => true

def missingEnd : Token := ⟨.endOfText, "", 0⟩

/-- A reader over the tokens before the first end, without comments. -/
def ofTokens (tokens : List Token) : TokenReader where
  rest := (tokens.filter isCode).takeWhile (·.kind != .endOfText)
  stop := ((tokens.filter isCode).find? (·.kind == .endOfText)).getD missingEnd
  nextId := 0

def current (r : TokenReader) : Token := r.rest.head?.getD r.stop

end TokenReader

/-- A reading step; what was taken stays taken when a step fails. -/
abbrev Reading := EStateM ParseError TokenReader

/-- A tree and a bound on its height. -/
structure Subtree where
  expr : Expr
  height : Nat

namespace Reading

def failHere {α : Type} (fault : ParseFault) : Reading α := do
  throw ⟨fault, (← get).current⟩

def accept? (wanted : TokenKind → Bool) : Reading (Option Token) := do
  let r ← get
  match r.rest with
  | token :: rest =>
    if wanted token.kind then
      set { r with rest }
      return some token
    else return none
  | [] => return none

def acceptMark? (mark : Punctuator) : Reading (Option Token) :=
  accept? (· == .punctuator mark)

def freshId : Reading Nat := modifyGet fun r => (r.nextId, { r with nextId := r.nextId + 1 })

def joinHeights (left right : Nat) (place : Token) : Reading Nat :=
  let height := max left right + 1
  if maxNesting < height then throw ⟨.nestedTooDeeply, place⟩ else return height

theorem run_accept?_nil {wanted : TokenKind → Bool} {r : TokenReader} (h : r.rest = []) :
    (accept? wanted).run r = .ok none r := by
  simp [accept?, h]

theorem run_accept?_of_pos {wanted : TokenKind → Bool} {r : TokenReader} {t : Token}
    {ts : List Token} (h : r.rest = t :: ts) (is : wanted t.kind = true) :
    (accept? wanted).run r = .ok (some t) { r with rest := ts } := by
  simp only [accept?, EStateM.run_bind, EStateM.run_get, h, is, if_true]
  rfl

theorem run_accept?_of_neg {wanted : TokenKind → Bool} {r : TokenReader} {t : Token}
    {ts : List Token} (h : r.rest = t :: ts) (is : wanted t.kind = false) :
    (accept? wanted).run r = .ok none r := by
  simp [accept?, h, is]

@[simp] theorem run_failHere {α : Type} (fault : ParseFault) (r : TokenReader) :
    (failHere fault : Reading α).run r = .error ⟨fault, r.current⟩ r := rfl

theorem run_joinHeights (left right : Nat) (place : Token) (r : TokenReader) :
    (joinHeights left right place).run r =
      if maxNesting < max left right + 1 then .error ⟨.nestedTooDeeply, place⟩ r
      else .ok (max left right + 1) r := by
  unfold joinHeights
  simp only
  split <;> rfl

def literal? : TokenKind → Option Value
  | .keyword .falseWord => some (.bool false)
  | .keyword .trueWord => some (.bool true)
  | .keyword .noneWord => some .none
  | .integer n => some (.integer n)
  | .float x => some (.float x)
  | .string s => some (.text s)
  | _ => none

/-- A level of precedence: its operators and the node they make. -/
structure Level where
  isOperator : TokenKind → Bool
  node : Expr → Token → Expr → Expr

def levels : List Level :=
  [⟨(· == .keyword .orWord), .logical⟩,
    ⟨(· == .keyword .andWord), .logical⟩,
    ⟨fun k => k == .punctuator .bangEqual || k == .punctuator .equalEqual, .binary⟩,
    ⟨fun k => k == .punctuator .greater || k == .punctuator .greaterEqual ||
      k == .punctuator .less || k == .punctuator .lessEqual, .binary⟩,
    ⟨fun k => k == .punctuator .minus || k == .punctuator .plus, .binary⟩,
    ⟨fun k => k == .punctuator .star || k == .punctuator .slash, .binary⟩]

def isUnaryOperator (k : TokenKind) : Bool :=
  k == .punctuator .bang || k == .punctuator .minus || k == .keyword .notWord

/-- Operators of one level with their right operands, joined to the left. Each takes a
token, so the number of tokens bounds their number. -/
def chainFrom (level : Level) (operand : Reading Subtree) : Nat → Subtree → Reading Subtree
  | 0, left => return left
  | bound + 1, left => do
    match ← accept? level.isOperator with
    | none => return left
    | some operator =>
      let right ← operand
      let height ← joinHeights left.height right.height operator
      chainFrom level operand bound ⟨level.node left.expr operator right.expr, height⟩

def chain (level : Level) (operand : Reading Subtree) : Reading Subtree := do
  let first ← operand
  chainFrom level operand (← get).rest.length first

/-- Operands joined by the operators of a list of levels, loosest first. -/
def climb : List Level → Reading Subtree → Reading Subtree
  | [], operand => operand
  | level :: tighter, operand => chain level (climb tighter operand)

def propertiesFrom : Nat → Subtree → Reading Subtree
  | 0, object => return object
  | bound + 1, object => do
    match ← acceptMark? .dot with
    | none => return object
    | some _ =>
      match ← accept? (· == .identifier) with
      | none => failHere .propertyNameExpected
      | some name =>
        let height ← joinHeights object.height 0 name
        propertiesFrom bound ⟨.get object.expr name, height⟩

def primary (nested : Reading Subtree) : Reading Subtree := do
  let r ← get
  match r.rest with
  | [] => failHere .expressionExpected
  | token :: rest =>
    match literal? token.kind with
    | some value =>
      set { r with rest }
      return ⟨.literal value, 1⟩
    | none =>
      match token.kind with
      | .identifier =>
        set { r with rest }
        return ⟨.reference (← freshId) token, 1⟩
      | .punctuator .leftParen =>
        set { r with rest }
        let inner ← nested
        match ← acceptMark? .rightParen with
        | none => failHere .closingParenExpected
        | some _ => return ⟨.grouping inner.expr, ← joinHeights inner.height 0 token⟩
      | _ => failHere .expressionExpected

/-- The assignment to a target, if the expression left of the equals sign is one. -/
def assignTo? (target value : Expr) : Option Expr :=
  match target with
  | .reference id name => some (.assign id name value)
  | .get object name => some (.set object name value)
  | _ => none

mutual

/-- An assignment or an expression of the loosest level, with so many entries left. -/
def assignment : Nat → Reading Subtree
  | 0 => failHere .nestedTooDeeply
  | entries + 1 => do
    let target ← climb levels (operand entries)
    match ← acceptMark? .equal with
    | none => return target
    | some equals =>
      let value ← assignment entries
      match assignTo? target.expr value.expr with
      | none => throw ⟨.invalidTarget, equals⟩
      | some expr => return ⟨expr, ← joinHeights target.height value.height equals⟩
termination_by structural entries => entries

/-- A unary operator with its operand, or a primary expression with properties. -/
def operand : Nat → Reading Subtree
  | 0 => failHere .nestedTooDeeply
  | entries + 1 => do
    match ← accept? isUnaryOperator with
    | some operator =>
      let right ← operand entries
      return ⟨.unary operator right.expr, ← joinHeights right.height 0 operator⟩
    | none =>
      let object ← primary (assignment entries)
      propertiesFrom (← get).rest.length object
termination_by structural entries => entries

end

def expression : Reading Expr := Subtree.expr <$> assignment maxNesting

def wholeExpression : Reading Expr := do
  let e ← expression
  if (← get).rest.isEmpty then return e else failHere .endExpected

end Reading

namespace TokenReader

def attempt {α : Type} (step : Reading α) (r : TokenReader) : Except ParseError α × TokenReader :=
  match step.run r with
  | .ok a r' => (.ok a, r')
  | .error e r' => (.error e, r')

theorem attempt_eq_ok_iff {α : Type} {step : Reading α} {r r' : TokenReader} {a : α} :
    r.attempt step = (.ok a, r') ↔ step.run r = .ok a r' := by
  unfold attempt
  cases step.run r <;> simp

theorem attempt_eq_error_iff {α : Type} {step : Reading α} {r r' : TokenReader} {e : ParseError} :
    r.attempt step = (.error e, r') ↔ step.run r = .error e r' := by
  unfold attempt
  cases step.run r <;> simp

def attemptAll {α : Type} : List (Reading α) → TokenReader → List (Except ParseError α)
  | [], _ => []
  | step :: steps, r =>
    let (result, r') := r.attempt step
    result :: attemptAll steps r'

end TokenReader

def Expr.ofTokens (tokens : List Token) : Except ParseError Expr :=
  ((TokenReader.ofTokens tokens).attempt Reading.wholeExpression).1

end ScopedExpr
