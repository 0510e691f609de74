import ScopedExpr.ExpressionTree

/-!
# The bracketed form of an expression

Each node is written in brackets: what it is, its operator or name, and its parts.
Grouping is a node, so the form shows where brackets stood in the text. A literal is
written as its value is shown.
-/

namespace ScopedExpr.Expr

def toBracketed : Expr → String
  | literal value => "(Literal " ++ value.display ++ ")"
  | grouping e => "(Group " ++ e.toBracketed ++ ")"
  | reference _ name => "(Variable " ++ name.lexeme ++ ")"
  | assign _ name value => "(Assign " ++ name.lexeme ++ " " ++ value.toBracketed ++ ")"
  | get object name => "(Get " ++ object.toBracketed ++ " " ++ name.lexeme ++ ")"
  | set object name value =>
    "(Set " ++ object.toBracketed ++ " " ++ name.lexeme ++ " " ++ value.toBracketed ++ ")"
  | unary operator operand => "(Unary " ++ operator.lexeme ++ " " ++ operand.toBracketed ++ ")"
  | binary left operator right =>
    "(Binary " ++ operator.lexeme ++ " " ++ left.toBracketed ++ " " ++ right.toBracketed ++ ")"
  | logical left operator right =>
    "(Logical " ++ operator.lexeme ++ " " ++ left.toBracketed ++ " " ++ right.toBracketed ++ ")"

end ScopedExpr.Expr
