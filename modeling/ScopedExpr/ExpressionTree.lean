import ScopedExpr.LexicalToken

/-!
# Expression trees

The nodes of an expression keep the tokens they were read from. A variable and the
target of an assignment are references: each carries a number by which later stages
tell occurrences of one name apart.
-/

namespace ScopedExpr

inductive Expr where
  | literal (value : Value)
  | grouping (inner : Expr)
  | reference (id : Nat) (name : Token)
  | assign (id : Nat) (name : Token) (value : Expr)
  | get (object : Expr) (name : Token)
  | set (object : Expr) (name : Token) (value : Expr)
  | unary (operator : Token) (operand : Expr)
  | binary (left : Expr) (operator : Token) (right : Expr)
  | logical (left : Expr) (operator : Token) (right : Expr)
deriving DecidableEq

namespace Expr

/-- The number of nodes on the longest path from the root to a leaf. -/
def height : Expr → Nat
  | literal _ => 1
  | grouping e => e.height + 1
  | reference _ _ => 1
  | assign _ _ v => v.height + 1
  | get o _ => o.height + 1
  | set o _ v => max o.height v.height + 1
  | unary _ e => e.height + 1
  | binary l _ r => max l.height r.height + 1
  | logical l _ r => max l.height r.height + 1

/-- The references of a tree with their names, a target before its value. -/
def references : Expr → List (Nat × Token)
  | literal _ => []
  | grouping e => e.references
  | reference id name => [(id, name)]
  | assign id name v => (id, name) :: v.references
  | get o _ => o.references
  | set o _ v => o.references ++ v.references
  | unary _ e => e.references
  | binary l _ r => l.references ++ r.references
  | logical l _ r => l.references ++ r.references

/-- Equality of trees: numbers of references and all tokens are compared, tokens
without what they stand for, and literals within their kind. -/
def same : Expr → Expr → Bool
  | literal a, literal b => a.strictEq b
  | grouping a, grouping b => a.same b
  | reference i a, reference j b => i == j && a.same b
  | assign i a v, assign j b w => i == j && a.same b && v.same w
  | get o a, get p b => o.same p && a.same b
  | set o a v, set p b w => o.same p && a.same b && v.same w
  | unary a e, unary b f => a.same b && e.same f
  | binary l a r, binary m b s => l.same m && a.same b && r.same s
  | logical l a r, logical m b s => l.same m && a.same b && r.same s
  | _, _ => false

theorem height_pos (e : Expr) : 0 < e.height := by
  cases e <;> simp [height]

end Expr

end ScopedExpr
