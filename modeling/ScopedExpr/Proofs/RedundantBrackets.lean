import ScopedExpr.Evaluation
import ScopedExpr.Proofs.ExpressionRecognition

/-!
# Redundant brackets

A node of a tree stands in a context, the tree around it. What a tree in a context does to
the references, to resolution and to evaluation of the whole is told by what it does alone,
and the whole stays in the grammar when the hole is filled with a tree of a tighter level.
Brackets are of the tightest level and do nothing of their own, so brackets around the tokens
of any node change the tree only by a node of their own.
-/

namespace ScopedExpr

namespace Expr

/-- A tree with a hole in the place of one of its nodes. -/
inductive Context where
  | here
  | grouping (inner : Context)
  | assign (id : Nat) (name : Token) (value : Context)
  | get (object : Context) (name : Token)
  | setObject (object : Context) (name : Token) (value : Expr)
  | setValue (object : Expr) (name : Token) (value : Context)
  | unary (operator : Token) (operand : Context)
  | binaryLeft (left : Context) (operator : Token) (right : Expr)
  | binaryRight (left : Expr) (operator : Token) (right : Context)
  | logicalLeft (left : Context) (operator : Token) (right : Expr)
  | logicalRight (left : Expr) (operator : Token) (right : Context)

namespace Context

def fill : Context → Expr → Expr
  | here, n => n
  | grouping c, n => .grouping (c.fill n)
  | assign id name c, n => .assign id name (c.fill n)
  | get c name, n => .get (c.fill n) name
  | setObject c name value, n => .set (c.fill n) name value
  | setValue object name c, n => .set object name (c.fill n)
  | unary operator c, n => .unary operator (c.fill n)
  | binaryLeft c operator right, n => .binary (c.fill n) operator right
  | binaryRight left operator c, n => .binary left operator (c.fill n)
  | logicalLeft c operator right, n => .logical (c.fill n) operator right
  | logicalRight left operator c, n => .logical left operator (c.fill n)

/-- The tokens before and behind the hole spell the tree around it. -/
inductive Surrounds : Context → List Token → List Token → Prop where
  | here : Surrounds here [] []
  | grouping {c opening closing before behind} (isOpening : opening.kind = .punctuator .leftParen)
      (isClosing : closing.kind = .punctuator .rightParen) (inner : Surrounds c before behind) :
      Surrounds (grouping c) (opening :: before) (behind ++ [closing])
  | assign {c id name equals before behind} (isEqual : equals.kind = .punctuator .equal)
      (value : Surrounds c before behind) :
      Surrounds (assign id name c) (name :: equals :: before) behind
  | get {c name dot before behind} (isDot : dot.kind = .punctuator .dot)
      (object : Surrounds c before behind) : Surrounds (get c name) before (behind ++ [dot, name])
  | setObject {c name dot equals v us before behind} (isDot : dot.kind = .punctuator .dot)
      (isEqual : equals.kind = .punctuator .equal) (object : Surrounds c before behind)
      (value : v.Spells us) :
      Surrounds (setObject c name v) before (behind ++ dot :: name :: equals :: us)
  | setValue {o name dot equals c ts before behind} (isDot : dot.kind = .punctuator .dot)
      (isEqual : equals.kind = .punctuator .equal) (object : o.Spells ts)
      (value : Surrounds c before behind) :
      Surrounds (setValue o name c) (ts ++ dot :: name :: equals :: before) behind
  | unary {operator c before behind} (operand : Surrounds c before behind) :
      Surrounds (unary operator c) (operator :: before) behind
  | binaryLeft {c operator r us before behind} (left : Surrounds c before behind)
      (right : r.Spells us) : Surrounds (binaryLeft c operator r) before (behind ++ operator :: us)
  | binaryRight {l operator c ts before behind} (left : l.Spells ts)
      (right : Surrounds c before behind) :
      Surrounds (binaryRight l operator c) (ts ++ operator :: before) behind
  | logicalLeft {c operator r us before behind} (left : Surrounds c before behind)
      (right : r.Spells us) : Surrounds (logicalLeft c operator r) before (behind ++ operator :: us)
  | logicalRight {l operator c ts before behind} (left : l.Spells ts)
      (right : Surrounds c before behind) :
      Surrounds (logicalRight l operator c) (ts ++ operator :: before) behind

variable {c : Context} {m n : Expr} {before own behind ts : List Token}

theorem Surrounds.spells_fill (around : c.Surrounds before behind) (inside : n.Spells own) :
    (c.fill n).Spells (before ++ (own ++ behind)) := by
  induction around with
  | here => simpa [fill] using inside
  | grouping isOpening isClosing _ ih => simpa [fill] using Spells.grouping isOpening isClosing ih
  | assign isEqual _ ih => exact .assign isEqual ih
  | get isDot _ ih => simpa [fill] using Spells.get isDot ih
  | setObject isDot isEqual _ value ih => simpa [fill] using Spells.set isDot isEqual ih value
  | setValue isDot isEqual object _ ih => simpa [fill] using Spells.set isDot isEqual object ih
  | unary _ ih => exact .unary ih
  | binaryLeft _ right ih => simpa [fill] using Spells.binary ih right
  | binaryRight left _ ih => simpa [fill] using Spells.binary left ih
  | logicalLeft _ right ih => simpa [fill] using Spells.logical ih right
  | logicalRight left _ ih => simpa [fill] using Spells.logical left ih

/-- Every node has tokens of its own among those of the whole. -/
theorem exists_surrounds (h : (c.fill n).Spells ts) :
    ∃ before own behind, ts = before ++ (own ++ behind) ∧ c.Surrounds before behind ∧
      n.Spells own := by
  induction c generalizing ts with
  | here => exact ⟨[], ts, [], by simp, .here, h⟩
  | grouping c ih =>
    cases h with
    | grouping isOpening isClosing inner =>
      obtain ⟨before, own, behind, rfl, around, inside⟩ := ih inner
      exact ⟨_, own, _, by simp, .grouping isOpening isClosing around, inside⟩
  | assign id name c ih =>
    cases h with
    | assign isEqual value =>
      obtain ⟨before, own, behind, rfl, around, inside⟩ := ih value
      exact ⟨_, own, _, by simp, .assign isEqual around, inside⟩
  | get c name ih =>
    cases h with
    | get isDot object =>
      obtain ⟨before, own, behind, rfl, around, inside⟩ := ih object
      exact ⟨_, own, _, by simp, .get isDot around, inside⟩
  | setObject c name v ih =>
    cases h with
    | set isDot isEqual object value =>
      obtain ⟨before, own, behind, rfl, around, inside⟩ := ih object
      exact ⟨_, own, _, by simp, .setObject isDot isEqual around value, inside⟩
  | setValue o name c ih =>
    cases h with
    | set isDot isEqual object value =>
      obtain ⟨before, own, behind, rfl, around, inside⟩ := ih value
      exact ⟨_, own, _, by simp, .setValue isDot isEqual object around, inside⟩
  | unary operator c ih =>
    cases h with
    | unary operand =>
      obtain ⟨before, own, behind, rfl, around, inside⟩ := ih operand
      exact ⟨_, own, _, by simp, .unary around, inside⟩
  | binaryLeft c operator r ih =>
    cases h with
    | binary left right =>
      obtain ⟨before, own, behind, rfl, around, inside⟩ := ih left
      exact ⟨_, own, _, by simp, .binaryLeft around right, inside⟩
  | binaryRight l operator c ih =>
    cases h with
    | binary left right =>
      obtain ⟨before, own, behind, rfl, around, inside⟩ := ih right
      exact ⟨_, own, _, by simp, .binaryRight left around, inside⟩
  | logicalLeft c operator r ih =>
    cases h with
    | logical left right =>
      obtain ⟨before, own, behind, rfl, around, inside⟩ := ih left
      exact ⟨_, own, _, by simp, .logicalLeft around right, inside⟩
  | logicalRight l operator c ih =>
    cases h with
    | logical left right =>
      obtain ⟨before, own, behind, rfl, around, inside⟩ := ih right
      exact ⟨_, own, _, by simp, .logicalRight left around, inside⟩

theorem level_fill_le (tighter : n.level ≤ m.level) : (c.fill n).level ≤ (c.fill m).level := by
  cases c with
  | here => exact tighter
  | _ => exact Nat.le_refl _

theorem wellFormed_of_fill (h : (c.fill n).WellFormed) : n.WellFormed := by
  induction c with
  | here => exact h
  | grouping c ih => exact ih h
  | assign id name c ih => exact ih h.2
  | get c name ih => exact ih h.2.1
  | setObject c name v ih => exact ih h.2.1
  | setValue o name c ih => exact ih h.2.2.2
  | unary operator c ih => exact ih h.2.2
  | binaryLeft c operator r ih | logicalLeft c operator r ih =>
    obtain ⟨p, -, -, -, -, left, -⟩ := h
    exact ih left
  | binaryRight l operator c ih | logicalRight l operator c ih =>
    obtain ⟨p, -, -, -, -, -, right⟩ := h
    exact ih right

/-- The tree of a hole can be replaced by one of a tighter level. -/
theorem wellFormed_fill (h : (c.fill n).WellFormed) (wf : m.WellFormed)
    (tighter : n.level ≤ m.level) : (c.fill m).WellFormed := by
  induction c with
  | here => exact wf
  | grouping c ih => exact ih h
  | assign id name c ih => exact ⟨h.1, ih h.2⟩
  | get c name ih =>
    have object : (c.fill n).level ≤ (c.fill m).level := level_fill_le tighter
    exact ⟨Nat.le_antisymm (level_le _) (h.1 ▸ object), ih h.2.1, h.2.2⟩
  | setObject c name v ih =>
    have object : (c.fill n).level ≤ (c.fill m).level := level_fill_le tighter
    exact ⟨Nat.le_antisymm (level_le _) (h.1 ▸ object), ih h.2.1, h.2.2⟩
  | setValue o name c ih => exact ⟨h.1, h.2.1, h.2.2.1, ih h.2.2.2⟩
  | unary operator c ih => exact ⟨h.1, h.2.1.trans (level_fill_le tighter), ih h.2.2⟩
  | binaryLeft c operator r ih | logicalLeft c operator r ih =>
    obtain ⟨p, is, sort, leftLevel, rightLevel, left, right⟩ := h
    exact ⟨p, is, sort, leftLevel.trans (level_fill_le tighter), rightLevel, ih left, right⟩
  | binaryRight l operator c ih | logicalRight l operator c ih =>
    obtain ⟨p, is, sort, leftLevel, rightLevel, left, right⟩ := h
    exact ⟨p, is, sort, leftLevel, rightLevel.trans_le (level_fill_le tighter), left, ih right⟩

theorem references_fill (same : m.references = n.references) :
    (c.fill m).references = (c.fill n).references := by
  induction c <;> simp_all only [fill, references]

theorem resolve_fill (same : ∀ r : Resolution, r.resolve m = r.resolve n) (r : Resolution) :
    r.resolve (c.fill m) = r.resolve (c.fill n) := by
  induction c generalizing r <;> simp_all only [fill, Resolution.resolve]

theorem evaluate_fill {access : Access} (same : m.evaluate access = n.evaluate access) :
    (c.fill m).evaluate access = (c.fill n).evaluate access := by
  induction c <;> simp_all only [fill, evaluate]

end Context

end Expr

section Bracketed

open TokenReader

variable {tokens before own behind : List Token} {opening closing : Token}
  {c : Expr.Context} {n : Expr}

/-- In a list of tokens, among which there may be comments, a node takes up the middle one of
three parts, and its context the tokens around it up to the end. -/
structure TakesUp (tokens : List Token) (c : Expr.Context) (n : Expr)
    (before own behind : List Token) : Prop where
  whole : tokens = before ++ (own ++ behind)
  noEnd : ∀ t ∈ before ++ own, t.kind ≠ .endOfText
  around : c.Surrounds (before.filter isCode) (ofTokens behind).rest
  inside : n.Spells (own.filter isCode)

theorem exists_takesUp (h : (c.fill n).Spells (ofTokens tokens).rest) :
    ∃ before own behind, TakesUp tokens c n before own behind := by
  obtain ⟨xs, ys, zs, split, around, inside⟩ := Expr.Context.exists_surrounds h
  obtain ⟨before, tail, rfl, noEnd, rfl, tailRest⟩ := exists_split_of_rest split
  obtain ⟨own, behind, rfl, ownNoEnd, rfl, rfl⟩ := exists_split_of_rest tailRest
  exact ⟨before, own, behind, rfl, List.forall_mem_append.2 ⟨noEnd, ownNoEnd⟩, around, inside⟩

/-- The node with brackets around its tokens is spelled in the same context. -/
theorem TakesUp.bracketed (h : TakesUp tokens c n before own behind)
    (isOpening : opening.kind = .punctuator .leftParen)
    (isClosing : closing.kind = .punctuator .rightParen) :
    (c.fill (.grouping n)).Spells
      (ofTokens (before ++ opening :: (own ++ closing :: behind))).rest := by
  obtain ⟨beforeNoEnd, ownNoEnd⟩ := List.forall_mem_append.1 h.noEnd
  have openingCode : isCode opening = true := by rw [isCode, isOpening]
  have closingCode : isCode closing = true := by rw [isCode, isClosing]
  have openingNoEnd : opening.kind ≠ .endOfText := by simp [isOpening]
  have closingNoEnd : closing.kind ≠ .endOfText := by simp [isClosing]
  have spelled := h.around.spells_fill (.grouping isOpening isClosing h.inside)
  rw [rest_ofTokens_append beforeNoEnd, rest_ofTokens_cons openingCode openingNoEnd,
    rest_ofTokens_append ownNoEnd, rest_ofTokens_cons closingCode closingNoEnd]
  simpa using spelled

/-- Brackets around the tokens of any node of a tree that is read, comments among them or
not, give the tree with brackets in the place of the node whenever the bounds of nesting
allow. It has the same references with the same numbers, is resolved to the same distances
whatever blocks are open, and in every session it has the same value or fault and leaves the
same session behind. -/
theorem redundant_brackets (read : Expr.ofTokens tokens = .ok (c.fill n)) :
    (∃ before own behind, TakesUp tokens c n before own behind) ∧
    (∀ before own behind opening closing, TakesUp tokens c n before own behind →
      opening.kind = .punctuator .leftParen → closing.kind = .punctuator .rightParen →
      (Expr.ofTokens (before ++ opening :: (own ++ closing :: behind)) =
          .ok (c.fill (.grouping n)) ↔
        (c.fill (.grouping n)).countedHeight ≤ maxNesting ∧
          (c.fill (.grouping n)).entries < maxNesting)) ∧
    (c.fill (.grouping n)).references = (c.fill n).references ∧
    (∀ r : Resolution, r.resolve (c.fill (.grouping n)) = r.resolve (c.fill n)) ∧
    ∀ access (s : Session),
      s.evaluate access (c.fill (.grouping n)) = s.evaluate access (c.fill n) := by
  obtain ⟨wf, readable⟩ := readable_of_ofTokens read
  have references : (c.fill (.grouping n)).references = (c.fill n).references :=
    Expr.Context.references_fill rfl
  refine ⟨exists_takesUp readable.spelled, ?_, references, ?_, ?_⟩
  · intro before own behind opening closing takes isOpening isClosing
    constructor
    · intro again
      have bracketed := (readable_of_ofTokens again).2
      have within := bracketed.within
      have positive := Reading.one_le_maxNesting
      exact ⟨bracketed.bounded, by omega⟩
    · rintro ⟨bounded, entries⟩
      have ids := readable.ids
      rw [Expr.referenceIds, ← references] at ids
      have formed : (Expr.grouping n).WellFormed := Expr.Context.wellFormed_of_fill (n := n) wf
      have whole := Expr.Context.wellFormed_fill wf formed n.level_le
      exact ofTokens_of_readable whole
        ⟨takes.bracketed isOpening isClosing, by omega, ids, bounded⟩
  · exact Expr.Context.resolve_fill fun r => rfl
  · intro access s
    have same : (c.fill (.grouping n)).evaluate access = (c.fill n).evaluate access :=
      Expr.Context.evaluate_fill rfl
    rw [Session.evaluate, Session.evaluate, same]

/-- The tokens of `x = a - 2 - b` before and behind `a - 2`, which is the left operand. -/
def beforeDifference : List Token := [⟨.identifier, "x", 1⟩, ⟨.punctuator .equal, "=", 1⟩]

def differenceTokens : List Token :=
  [⟨.identifier, "a", 1⟩, ⟨.comment " less", "# less", 1⟩, ⟨.punctuator .minus, "-", 2⟩,
    ⟨.integer 2, "2", 2⟩]

def behindDifference : List Token :=
  [⟨.punctuator .minus, "-", 2⟩, ⟨.identifier, "b", 2⟩, ⟨.endOfText, "", 2⟩]

def aroundDifference : Expr.Context :=
  .assign 0 ⟨.identifier, "x", 1⟩ (.binaryLeft .here ⟨.punctuator .minus, "-", 2⟩
    (.reference 2 ⟨.identifier, "b", 2⟩))

def differenceTree : Expr :=
  .binary (.reference 1 ⟨.identifier, "a", 1⟩) ⟨.punctuator .minus, "-", 2⟩ (.literal (.integer 2))

theorem redundant_brackets_difference :
    Expr.ofTokens (beforeDifference ++ (differenceTokens ++ behindDifference)) =
        .ok (aroundDifference.fill differenceTree) ∧
      Expr.ofTokens (beforeDifference ++ ⟨.punctuator .leftParen, "(", 1⟩ ::
          (differenceTokens ++ ⟨.punctuator .rightParen, ")", 2⟩ :: behindDifference)) =
        .ok (aroundDifference.fill (.grouping differenceTree)) ∧
      ∀ s : Session, s.evaluate .resolved (aroundDifference.fill (.grouping differenceTree)) =
        s.evaluate .resolved (aroundDifference.fill differenceTree) := by
  have read : Expr.ofTokens (beforeDifference ++ (differenceTokens ++ behindDifference)) =
      .ok (aroundDifference.fill differenceTree) := rfl
  have takes : TakesUp _ aroundDifference differenceTree beforeDifference differenceTokens
      behindDifference :=
    ⟨rfl, by decide, .assign rfl (.binaryLeft .here .reference), .binary .reference (.literal rfl)⟩
  obtain ⟨-, brackets, -, -, evaluated⟩ := redundant_brackets read
  exact ⟨read, (brackets _ _ _ _ _ takes rfl rfl).2 ⟨by decide, by decide⟩, evaluated .resolved⟩

end Bracketed

end ScopedExpr
