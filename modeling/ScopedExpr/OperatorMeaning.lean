import ScopedExpr.EvaluationFault
import ScopedExpr.LexicalToken

/-!
# What operators mean

Operators are told by the kind of their token alone. Two integers are added,
subtracted and multiplied exactly and must fit; every other pair of numbers is
computed in binary64, as are all quotients and orderings. Equality never fails.
-/

namespace ScopedExpr

/-- An exact integer, or a fault when it has more than 64 bits. -/
def exactInteger (n : Int) (line : Nat) : Except EvalError Value :=
  match int64? n with
  | some i => .ok (.integer i)
  | none => .error (.runtime .integerOverflow line)

def applyUnary (operator : Token) (operand : Value) : Except EvalError Value :=
  match operator.kind with
  | .punctuator .minus =>
    match operand with
    | .integer n => exactInteger (-n.toInt) operator.line
    | .float x => .ok (.float x.neg)
    | _ => .error (.runtime .operandNotNumber operator.line)
  | .punctuator .bang => .ok (.bool !operand.isTruthy)
  | .keyword .notWord => .ok (.bool !operand.isTruthy)
  | _ => .error (.internal (.invalidUnaryOperator operator.lexeme) (some operator.line))

/-- The operations that two integers have. -/
def integerOperation? : TokenKind → Option (Int → Int → Int)
  | .punctuator .plus => some (· + ·)
  | .punctuator .minus => some (· - ·)
  | .punctuator .star => some (· * ·)
  | _ => none

def applyNumbers (operator : Token) (x y : Binary64) : Except EvalError Value :=
  match operator.kind with
  | .punctuator .plus => .ok (.float (x.add y))
  | .punctuator .minus => .ok (.float (x.sub y))
  | .punctuator .star => .ok (.float (x.mul y))
  | .punctuator .slash =>
    if y.isZero then .error (.runtime .divisionByZero operator.line) else .ok (.float (x.div y))
  | .punctuator .less => .ok (.bool (x.lt y))
  | .punctuator .lessEqual => .ok (.bool (x.le y))
  | .punctuator .greater => .ok (.bool (y.lt x))
  | .punctuator .greaterEqual => .ok (.bool (y.le x))
  | _ => .error (.internal (.invalidBinaryOperator operator.lexeme) (some operator.line))

def operandFault (operator : Token) (left right : Value) : RuntimeFault :=
  if operator.kind = .punctuator .plus then .operandsNotAddable left.kindName right.kindName
  else .operandsNotNumbers left.kindName right.kindName

def applyAsNumbers (operator : Token) (left right : Value) : Except EvalError Value :=
  match left.toBinary64?, right.toBinary64? with
  | some x, some y => applyNumbers operator x y
  | _, _ => .error (.runtime (operandFault operator left right) operator.line)

/-- The value of an operator that is no equality. -/
def applyArithmetic (operator : Token) (left right : Value) : Except EvalError Value :=
  match left, right with
  | .text a, .text b =>
    if operator.kind = .punctuator .plus then .ok (.text (a ++ b))
    else applyAsNumbers operator left right
  | .integer a, .integer b =>
    match integerOperation? operator.kind with
    | some operation => exactInteger (operation a.toInt b.toInt) operator.line
    | none => applyAsNumbers operator left right
  | _, _ => applyAsNumbers operator left right

def applyBinary (operator : Token) (left right : Value) : Except EvalError Value :=
  match operator.kind with
  | .punctuator .equalEqual => .ok (.bool (left.looseEq right))
  | .punctuator .bangEqual => .ok (.bool !left.looseEq right)
  | _ => applyArithmetic operator left right

/-- A logical operator is decided by its left operand: a disjunction by a true one,
any other by a false one. -/
def decidesLogical (operator : Token) (left : Value) : Bool :=
  if operator.kind = .keyword .orWord then left.isTruthy else !left.isTruthy

end ScopedExpr
