import ScopedExpr.DynamicValue

/-!
# Faults of evaluation

A runtime fault lies with the evaluated expression and has a line. An internal fault
tells of a use of the evaluator that no expression read from a text makes; it has a
line where a token is at hand.
-/

namespace ScopedExpr

inductive RuntimeFault where
  | undefinedVariable (name : String)
  | integerOverflow
  | divisionByZero
  | operandNotNumber
  /-- The kinds of two operands of which not both are numbers. -/
  | operandsNotNumbers (left right : String)
  /-- The kinds of two operands that are neither both numbers nor both texts. -/
  | operandsNotAddable (left right : String)
  | noProperties
  | noFields
deriving DecidableEq

def RuntimeFault.message : RuntimeFault → String
  | undefinedVariable name => s!"Undefined variable '{name}'."
  | integerOverflow => "Integer overflow."
  | divisionByZero => "Division by zero."
  | operandNotNumber => "Operand must be a number."
  | operandsNotNumbers left right => s!"Operands must be numbers, got {left} and {right}."
  | operandsNotAddable left right =>
    s!"Operands must be two numbers or two strings, got {left} and {right}."
  | noProperties => "Only instances have properties."
  | noFields => "Only instances have fields."

inductive InternalFault where
  /-- A distance leads past the outermost scope, after so many hops. -/
  | chainEnded (hops distance : Nat)
  | noOpenBlock
  | invalidUnaryOperator (lexeme : String)
  | invalidBinaryOperator (lexeme : String)
deriving DecidableEq

def InternalFault.message : InternalFault → String
  | chainEnded hops distance => s!"scope chain ended after {hops} of {distance} hops"
  | noOpenBlock => "no block scope to leave"
  | invalidUnaryOperator lexeme => s!"invalid unary operator '{lexeme}'"
  | invalidBinaryOperator lexeme => s!"invalid binary operator '{lexeme}'"

inductive EvalError where
  | runtime (fault : RuntimeFault) (line : Nat)
  | internal (fault : InternalFault) (line : Option Nat)
deriving DecidableEq

end ScopedExpr
