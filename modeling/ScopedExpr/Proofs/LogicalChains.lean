import Mathlib.Data.List.Forall2
import ScopedExpr.Evaluation

/-!
# Chains of logical operators

Expressions joined by one logical operator, with or without brackets and joined in any order,
are evaluated as a search: from the first member on, each in the session that the one before
has left, up to the first that fails or whose value decides. Negation exchanges the two
operators, in the values, the faults and the sessions that are left.
-/

namespace ScopedExpr

inductive Connective where
  | disjunction
  | conjunction

namespace Connective

/-- Evaluation tells a disjunction by its operator and takes any other for a conjunction. -/
def Joins : Connective → Token → Prop
  | disjunction, operator => operator.kind = .keyword .orWord
  | conjunction, operator => operator.kind ≠ .keyword .orWord

/-- The value of a member that ends the search among the members. -/
def stops : Connective → Value → Bool
  | disjunction, v => v.isTruthy
  | conjunction, v => !v.isTruthy

def dual : Connective → Connective
  | disjunction => conjunction
  | conjunction => disjunction

theorem decidesLogical_of_joins {c : Connective} {operator : Token} (h : c.Joins operator) :
    decidesLogical operator = c.stops := by
  funext v
  cases c with
  | disjunction => exact if_pos h
  | conjunction => exact if_neg h

theorem stops_dual (c : Connective) (v : Value) : c.dual.stops (.bool !v.isTruthy) = c.stops v := by
  cases c with
  | disjunction => exact Bool.not_not _
  | conjunction => rfl

end Connective

/-- What an evaluation gives: a value or a fault, and the session that it leaves. -/
abbrev Evaluated := Except EvalError Value × Session

namespace Evaluated

/-- Go on in the session that is left, unless there is a fault or a value that stops. -/
def goOn (stops : Value → Bool) (next : Session → Evaluated) : Evaluated → Evaluated
  | (.error err, s) => (.error err, s)
  | (.ok v, s) => if stops v then (.ok v, s) else next s

def negated : Evaluated → Evaluated
  | (.error err, s) => (.error err, s)
  | (.ok v, s) => (.ok (.bool !v.isTruthy), s)

/-- A search that goes on with a search goes on from what the first part gives. -/
theorem goOn_goOn (stops : Value → Bool) (first second : Session → Evaluated) (o : Evaluated) :
    (o.goOn stops first).goOn stops second =
      o.goOn stops fun s => goOn stops second (first s) := by
  obtain ⟨err | v, s⟩ := o
  · rfl
  · cases stopped : stops v with
    | true => simp only [goOn, stopped, if_true]
    | false => simp only [goOn, stopped, Bool.false_eq_true, if_false]

theorem negated_goOn (c : Connective) (next : Session → Evaluated) (o : Evaluated) :
    (o.goOn c.stops next).negated = o.negated.goOn c.dual.stops fun s => negated (next s) := by
  obtain ⟨err | v, s⟩ := o
  · rfl
  · cases stopped : c.stops v with
    | true => simp only [goOn, negated, c.stops_dual, stopped, if_true]
    | false => simp only [goOn, negated, c.stops_dual, stopped, Bool.false_eq_true, if_false]

end Evaluated

namespace Session

variable {access : Access} {s : Session} {e l r : Expr} {operator : Token}

theorem evaluate_logical (access : Access) (s : Session) (l : Expr) (operator : Token) (r : Expr) :
    s.evaluate access (.logical l operator r) =
      Evaluated.goOn (decidesLogical operator) (fun s' => s'.evaluate access r)
        (s.evaluate access l) := by
  simp only [evaluate, Expr.evaluate, EStateM.run_bind]
  cases (l.evaluate access).run s with
  | error err s' => rfl
  | ok v s' =>
    simp only [Evaluated.goOn]
    cases decidesLogical operator v <;> rfl

/-- The members of a chain from the first one on, each evaluated in the session that the one
before has left, up to a fault or a value that stops. The last member is taken as it is. -/
def search (access : Access) (stops : Value → Bool) (s : Session) (first : Expr) :
    List Expr → Evaluated
  | [] => s.evaluate access first
  | next :: others =>
    Evaluated.goOn stops (fun s' => s'.search access stops next others) (s.evaluate access first)

theorem search_append (stops : Value → Bool) (s : Session) (first next : Expr)
    (before others : List Expr) :
    s.search access stops first (before ++ next :: others) =
      Evaluated.goOn stops (fun s' => s'.search access stops next others)
        (s.search access stops first before) := by
  induction before generalizing s first with
  | nil => rfl
  | cons second before ih =>
    simp only [List.cons_append, search, ih, Evaluated.goOn_goOn]

end Session

namespace Expr

/-- Expressions in order, the first one and others, joined by operators of one kind. -/
inductive Chain (c : Connective) : Expr → Expr → List Expr → Prop where
  | member (e) : Chain c e e []
  | grouping {e first others} (inner : Chain c e first others) :
      Chain c (.grouping e) first others
  | join {l operator r first before next others} (joins : c.Joins operator)
      (left : Chain c l first before) (right : Chain c r next others) :
      Chain c (.logical l operator r) first (before ++ next :: others)

def Negates (n e : Expr) : Prop :=
  ∃ operator, (operator.kind = .keyword .notWord ∨ operator.kind = .punctuator .bang) ∧
    n = .unary operator e

section Evaluation

variable {c : Connective} {e f n m first : Expr} {others negations : List Expr}

theorem Chain.evaluate_eq_search (h : Chain c e first others) (access : Access) (s : Session) :
    s.evaluate access e = s.search access c.stops first others := by
  induction h generalizing s with
  | member e => rfl
  | grouping _ ih => exact ih s
  | join joins _ _ ihl ihr =>
    rw [Session.evaluate_logical, Connective.decidesLogical_of_joins joins, Session.search_append,
      ihl]
    simp only [ihr]

theorem Negates.evaluate (h : n.Negates e) (access : Access) (s : Session) :
    s.evaluate access n = Evaluated.negated (s.evaluate access e) := by
  obtain ⟨operator, is, rfl⟩ := h
  cases outcome : s.evaluate access e with
  | mk result s' =>
    cases result with
    | error err => exact Session.evaluate_unary_of_error outcome
    | ok v =>
      have applied : applyUnary operator v = .ok (.bool !v.isTruthy) := by
        obtain ⟨kind, lexeme, line⟩ := operator
        rcases is with rfl | rfl <;> rfl
      rw [Session.evaluate_unary_of_ok outcome, applied, Evaluated.negated]

/-- A search among negations for the dual is the search among what they negate, negated. -/
theorem search_negations (first_negated : m.Negates first)
    (others_negated : List.Forall₂ Negates negations others) (access : Access) (s : Session) :
    s.search access c.dual.stops m negations =
      Evaluated.negated (s.search access c.stops first others) := by
  induction others_negated generalizing s first m with
  | nil => exact first_negated.evaluate access s
  | cons next_negated _ ih =>
    simp only [Session.search, first_negated.evaluate, Evaluated.negated_goOn, ih next_negated]

end Evaluation

/-- However it is bracketed, a chain gives the value or the fault and leaves the session of a
search among its members in order, a disjunction for the first that is true and a conjunction
for the first that is false. So the negation of a chain and any chain of the dual operator
among the negations of its members give the same and leave the same session. -/
theorem logical_chain_first_match {c : Connective} {e first : Expr} {others : List Expr}
    (h : Chain c e first others) :
    (∀ access (s : Session), s.evaluate access e = s.search access c.stops first others) ∧
    ∀ n f m negations, n.Negates e → m.Negates first → List.Forall₂ Negates negations others →
      Chain c.dual f m negations →
      ∀ access (s : Session), s.evaluate access n = s.evaluate access f := by
  refine ⟨h.evaluate_eq_search, ?_⟩
  intro n f m negations n_negates m_negates others_negated dual access s
  rw [n_negates.evaluate, h.evaluate_eq_search, dual.evaluate_eq_search,
    search_negations m_negates others_negated]

/-- `None`, `x = 0` and `y`, the members of both trees below. A number is true, so the first two
decide a disjunction. -/
def zeroToX : Expr := .assign 0 ⟨.identifier, "x", 1⟩ (.literal (.integer 0))

def readOfY : Expr := .reference 1 ⟨.identifier, "y", 1⟩

/-- `(None or x = 0) or y`. -/
def firstTrueOfThree : Expr :=
  .logical (.grouping (.logical (.literal .none) ⟨.keyword .orWord, "or", 1⟩ zeroToX))
    ⟨.keyword .orWord, "or", 1⟩ readOfY

/-- `not None and (!(x = 0) and not y)`. -/
def firstFalseOfThree : Expr :=
  .logical (.unary ⟨.keyword .notWord, "not", 1⟩ (.literal .none)) ⟨.keyword .andWord, "and", 1⟩
    (.grouping (.logical (.unary ⟨.punctuator .bang, "!", 1⟩ zeroToX)
      ⟨.keyword .andWord, "and", 1⟩ (.unary ⟨.keyword .notWord, "not", 1⟩ readOfY)))

/-- Both end with the assignment, whatever `y` is. -/
theorem firstTrueOfThree_first_match :
    Chain .disjunction firstTrueOfThree (.literal .none) [zeroToX, readOfY] ∧
      ∀ s : Session, s.evaluate .dynamic firstTrueOfThree =
          (.ok (.integer 0), { s with scopes := s.scopes.assign s.active "x" (.integer 0) }) ∧
        s.evaluate .dynamic (.unary ⟨.keyword .notWord, "not", 1⟩ firstTrueOfThree) =
          s.evaluate .dynamic firstFalseOfThree := by
  have or_joins : Connective.disjunction.Joins ⟨.keyword .orWord, "or", 1⟩ := rfl
  have disjunction : Chain .disjunction firstTrueOfThree (.literal .none) [zeroToX, readOfY] :=
    .join or_joins (.grouping (.join or_joins (.member _) (.member _))) (.member _)
  have and_joins : Connective.conjunction.Joins ⟨.keyword .andWord, "and", 1⟩ := by
    simp [Connective.Joins]
  have conjunction : Chain .conjunction firstFalseOfThree _ _ :=
    .join and_joins (.member _) (.grouping (.join and_joins (.member _) (.member _)))
  obtain ⟨found, negated⟩ := logical_chain_first_match disjunction
  refine ⟨disjunction, fun s => ⟨(found .dynamic s).trans rfl, ?_⟩⟩
  exact negated _ _ _ _ ⟨_, .inl rfl, rfl⟩ ⟨_, .inl rfl, rfl⟩
    (.cons ⟨_, .inr rfl, rfl⟩ (.cons ⟨_, .inl rfl, rfl⟩ .nil)) conjunction .dynamic s

end Expr

end ScopedExpr
