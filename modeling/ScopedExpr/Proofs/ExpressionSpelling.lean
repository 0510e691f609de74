import ScopedExpr.PrecedenceGrammar
import Mathlib.Tactic.IntervalCases

/-!
# The grammar of expressions

Which tokens spell a tree, and which trees the grammar has. Both are stated on the tree
alone: a tree is well formed when its names are identifiers, its operators belong to
their nodes, and every operand sits at the level that its place demands. Two measures of
a tree tell how deeply it nests while it is read.
-/

namespace ScopedExpr

def Value.tokenKind : Value → TokenKind
  | .none => .keyword .noneWord
  | .bool true => .keyword .trueWord
  | .bool false => .keyword .falseWord
  | .integer n => .integer n
  | .float x => .float x
  | .text s => .string s

/-- The precedence of an operator between two operands, from 1 for the loosest to 6 for
the tightest. -/
def TokenKind.precedence? : TokenKind → Option Nat
  | .keyword .orWord => some 1
  | .keyword .andWord => some 2
  | .punctuator .bangEqual | .punctuator .equalEqual => some 3
  | .punctuator .greater | .punctuator .greaterEqual
  | .punctuator .less | .punctuator .lessEqual => some 4
  | .punctuator .minus | .punctuator .plus => some 5
  | .punctuator .star | .punctuator .slash => some 6
  | _ => none

namespace Expr

/-- The level of a tree: 0 for an assignment, the precedence of an operator between two
operands, 7 for a unary operator and 8 for what stands without operators. -/
def level : Expr → Nat
  | assign _ _ _ | set _ _ _ => 0
  | binary _ operator _ | logical _ operator _ => operator.kind.precedence?.getD 0
  | unary _ _ => 7
  | literal _ | grouping _ | reference _ _ | get _ _ => 8

/-- The trees of the grammar. The left operand of an operator is at its own level or at a
tighter one, the right operand at a tighter one. -/
def WellFormed : Expr → Prop
  | literal _ => True
  | grouping e => e.WellFormed
  | reference _ name => name.kind = .identifier
  | assign _ name value => name.kind = .identifier ∧ value.WellFormed
  | get object name => object.level = 8 ∧ object.WellFormed ∧ name.kind = .identifier
  | set object name value =>
    object.level = 8 ∧ object.WellFormed ∧ name.kind = .identifier ∧ value.WellFormed
  | unary operator operand =>
    (operator.kind = .punctuator .bang ∨ operator.kind = .punctuator .minus ∨
      operator.kind = .keyword .notWord) ∧ 7 ≤ operand.level ∧ operand.WellFormed
  | binary left operator right =>
    ∃ p, operator.kind.precedence? = some p ∧ 2 < p ∧
      p ≤ left.level ∧ p < right.level ∧ left.WellFormed ∧ right.WellFormed
  | logical left operator right =>
    ∃ p, operator.kind.precedence? = some p ∧ p ≤ 2 ∧
      p ≤ left.level ∧ p < right.level ∧ left.WellFormed ∧ right.WellFormed

/-- The tokens spell the tree. Names and operators are the very tokens of the tree; the
token of a literal has the kind that writes its value. -/
inductive Spells : Expr → List Token → Prop where
  | literal {v t} (kind : t.kind = v.tokenKind) : Spells (.literal v) [t]
  | grouping {e opening closing ts} (isOpening : opening.kind = .punctuator .leftParen)
      (isClosing : closing.kind = .punctuator .rightParen) (inner : Spells e ts) :
      Spells (.grouping e) (opening :: ts ++ [closing])
  | reference {id name} : Spells (.reference id name) [name]
  | assign {id name equals v ts} (isEqual : equals.kind = .punctuator .equal)
      (value : Spells v ts) : Spells (.assign id name v) (name :: equals :: ts)
  | get {o name dot ts} (isDot : dot.kind = .punctuator .dot) (object : Spells o ts) :
      Spells (.get o name) (ts ++ [dot, name])
  | set {o name dot equals v ts us} (isDot : dot.kind = .punctuator .dot)
      (isEqual : equals.kind = .punctuator .equal) (object : Spells o ts)
      (value : Spells v us) : Spells (.set o name v) (ts ++ dot :: name :: equals :: us)
  | unary {operator e ts} (operand : Spells e ts) :
      Spells (.unary operator e) (operator :: ts)
  | binary {l operator r ts us} (left : Spells l ts) (right : Spells r us) :
      Spells (.binary l operator r) (ts ++ operator :: us)
  | logical {l operator r ts us} (left : Spells l ts) (right : Spells r us) :
      Spells (.logical l operator r) (ts ++ operator :: us)

/-- The rule entries that are open at once while the tree is read, without the entry of
the assignment rule that reads it. -/
def entries : Expr → Nat
  | literal _ | reference _ _ => 1
  | grouping e => e.entries + 2
  | assign _ _ value => value.entries + 1
  | get object _ => object.entries
  | set object _ value => max object.entries (value.entries + 1)
  | unary _ operand => operand.entries + 1
  | binary left _ right | logical left _ right => max left.entries right.entries

/-- The height that reading counts. It is the height of the tree, but that the target of
a field counts as a node over its object. -/
def countedHeight : Expr → Nat
  | literal _ | reference _ _ => 1
  | grouping e => e.countedHeight + 1
  | assign _ _ value => value.countedHeight + 1
  | get object _ => object.countedHeight + 1
  | set object _ value => max (object.countedHeight + 1) value.countedHeight + 1
  | unary _ operand => operand.countedHeight + 1
  | binary left _ right | logical left _ right =>
    max left.countedHeight right.countedHeight + 1

def referenceIds (e : Expr) : List Nat := e.references.map Prod.fst

theorem countedHeight_pos (e : Expr) : 0 < e.countedHeight := by
  cases e <;> simp [countedHeight]

theorem entries_pos (e : Expr) : 0 < e.entries := by
  induction e <;> simp only [entries] <;> omega

theorem height_le_countedHeight (e : Expr) : e.height ≤ e.countedHeight := by
  induction e <;> simp only [height, countedHeight] <;> omega

end Expr

namespace Reading

theorem literal?_tokenKind (v : Value) : literal? v.tokenKind = some v := by
  rcases v with _ | (_ | _) | _ | _ | _ <;> rfl

theorem literal?_eq_some_iff {k : TokenKind} {v : Value} :
    literal? k = some v ↔ k = v.tokenKind := by
  constructor
  · intro h
    unfold literal? at h
    split at h <;> cases h <;> rfl
  · rintro rfl
    exact literal?_tokenKind v

theorem isUnaryOperator_iff {k : TokenKind} : isUnaryOperator k = true ↔
    k = .punctuator .bang ∨ k = .punctuator .minus ∨ k = .keyword .notWord := by
  simp [isUnaryOperator, or_assoc]

theorem length_levels : levels.length = 6 := rfl

theorem isOperator_levels {i : Nat} (h : i < levels.length) (k : TokenKind) :
    levels[i].isOperator k = decide (k.precedence? = some (i + 1)) := by
  have bound : i < 6 := h
  interval_cases i
  all_goals
    rcases k with m | w | _ | _ | _ | _ | _ | _
    case punctuator => cases m <;> rfl
    case keyword => cases w <;> rfl
    all_goals rfl

theorem isOperator_levels_iff {i : Nat} (h : i < levels.length) {k : TokenKind} :
    levels[i].isOperator k = true ↔ k.precedence? = some (i + 1) := by
  rw [isOperator_levels h, decide_eq_true_iff]

theorem exists_level_of_precedence? {k : TokenKind} {p : Nat} (h : k.precedence? = some p) :
    ∃ i, i < levels.length ∧ p = i + 1 := by
  have bounds : 0 < p ∧ p ≤ levels.length := by
    rw [length_levels]
    unfold TokenKind.precedence? at h
    split at h <;> cases h <;> decide
  exact ⟨p - 1, by omega, by omega⟩

theorem node_levels {i : Nat} (h : i < levels.length) (l : Expr) (t : Token) (r : Expr) :
    levels[i].node l t r = if i < 2 then .logical l t r else .binary l t r := by
  have bound : i < 6 := h
  interval_cases i <;> rfl

section Node

variable {i : Nat} (h : i < levels.length) (l : Expr) (t : Token) (r : Expr)

theorem entries_node : (levels[i].node l t r).entries = max l.entries r.entries := by
  rw [node_levels h]
  split <;> rfl

theorem countedHeight_node :
    (levels[i].node l t r).countedHeight = max l.countedHeight r.countedHeight + 1 := by
  rw [node_levels h]
  split <;> rfl

theorem references_node :
    (levels[i].node l t r).references = l.references ++ r.references := by
  rw [node_levels h]
  split <;> rfl

variable {l t r}

theorem level_node (is : t.kind.precedence? = some (i + 1)) :
    (levels[i].node l t r).level = i + 1 := by
  rw [node_levels h]
  split <;> simp [Expr.level, is]

theorem wellFormed_node_iff (is : t.kind.precedence? = some (i + 1)) :
    (levels[i].node l t r).WellFormed ↔
      i + 1 ≤ l.level ∧ i + 1 < r.level ∧ l.WellFormed ∧ r.WellFormed := by
  rw [node_levels h]
  split <;> simp [Expr.WellFormed, is] <;> omega

theorem spells_node {ts us : List Token} (left : l.Spells ts) (right : r.Spells us) :
    (levels[i].node l t r).Spells (ts ++ t :: us) := by
  rw [node_levels h]
  split
  · exact .logical left right
  · exact .binary left right

end Node

end Reading

end ScopedExpr
