import ScopedExpr.BindingTable
import ScopedExpr.ExpressionTree

/-!
# Lexical distances

While blocks are opened and names declared in them, the references of expressions are
resolved: a reference is bound by the innermost open block that declares its name, and
its distance is the number of blocks between. A reference that no open block declares
has no distance; it stands for a global.
-/

namespace ScopedExpr

abbrev Locals := Table Nat Nat

/-- The names declared in the open blocks, innermost first, and the distances found. -/
structure Resolution where
  blocks : List (List String) := []
  locals : Locals := .empty

namespace Resolution

def openBlock (r : Resolution) : Resolution := { r with blocks := [] :: r.blocks }

def closeBlock (r : Resolution) : Resolution := { r with blocks := r.blocks.tail }

/-- Declare a name in the innermost block; outside of blocks every name is global. -/
def declare (r : Resolution) (name : String) : Resolution :=
  match r.blocks with
  | [] => r
  | block :: outer => { r with blocks := (name :: block) :: outer }

def depth (r : Resolution) : Nat := r.blocks.length

/-- The number of blocks between here and the one that declares a name. -/
def distance? (r : Resolution) (name : String) : Option Nat :=
  r.blocks.findIdx? fun block => block.contains name

def resolveReference (r : Resolution) (id : Nat) (name : String) : Resolution :=
  match r.distance? name with
  | some distance => { r with locals := r.locals.insert id distance }
  | none => r

/-- Note the distances of the references of a tree, a value before its target. -/
def resolve (r : Resolution) : Expr → Resolution
  | .literal _ => r
  | .grouping e => r.resolve e
  | .reference id name => r.resolveReference id name.lexeme
  | .assign id name value => (r.resolve value).resolveReference id name.lexeme
  | .get object _ => r.resolve object
  | .set object _ value => (r.resolve object).resolve value
  | .unary _ operand => r.resolve operand
  | .binary left _ right => (r.resolve left).resolve right
  | .logical left _ right => (r.resolve left).resolve right

@[simp] theorem blocks_resolveReference (r : Resolution) (id : Nat) (name : String) :
    (r.resolveReference id name).blocks = r.blocks := by
  unfold resolveReference
  split <;> rfl

@[simp] theorem blocks_resolve (r : Resolution) (e : Expr) : (r.resolve e).blocks = r.blocks := by
  induction e generalizing r <;> simp_all [resolve]

end Resolution

end ScopedExpr
