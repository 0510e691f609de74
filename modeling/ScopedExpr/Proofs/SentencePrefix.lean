import ScopedExpr.Proofs.GrammarCompleteness

/-!
# Beginnings of sentences

The grammar on tokens alone, without trees and without bounds of nesting; left of an equals
sign any operands joined by operators may stand. A sentence goes through few states: what
has to come next, and how many brackets are open. A token that has no place in the state
that the tokens before it lead to has no place behind them in any sentence.
-/

namespace ScopedExpr

/-- The token lists of a rule of the grammar: 0 for assignments, the precedence of an
operator between two operands, 7 for unary operators, 8 for objects with properties and 9
for what stands alone. Rule 0 gives the sentences. -/
inductive Phrase : Nat → List Token → Prop where
  | assignment {equals ts us} (isEqual : equals.kind = .punctuator .equal)
      (target : Phrase 1 ts) (value : Phrase 0 us) : Phrase 0 (ts ++ equals :: us)
  | operator {p operator ts us} (is : operator.kind.precedence? = some p)
      (left : Phrase p ts) (right : Phrase (p + 1) us) : Phrase p (ts ++ operator :: us)
  | unary {operator ts} (is : operator.kind = .punctuator .bang ∨
      operator.kind = .punctuator .minus ∨ operator.kind = .keyword .notWord)
      (operand : Phrase 7 ts) : Phrase 7 (operator :: ts)
  | property {dot name ts} (isDot : dot.kind = .punctuator .dot)
      (isName : name.kind = .identifier) (object : Phrase 8 ts) : Phrase 8 (ts ++ [dot, name])
  | literal {t} {v : Value} (kind : t.kind = v.tokenKind) : Phrase 9 [t]
  | reference {name} (isName : name.kind = .identifier) : Phrase 9 [name]
  | grouping {opening closing ts} (isOpening : opening.kind = .punctuator .leftParen)
      (isClosing : closing.kind = .punctuator .rightParen) (inner : Phrase 0 ts) :
      Phrase 9 (opening :: ts ++ [closing])
  | tighter {level ts} (phrase : Phrase (level + 1) ts) : Phrase level ts

namespace Phrase

variable {m n : Nat} {ts : List Token} {e : Expr}

theorem mono (h : Phrase n ts) (le : m ≤ n) : Phrase m ts := by
  induction le using Nat.decreasingInduction with
  | self => exact h
  | of_succ k _ ih => exact .tighter ih

/-- What spells a tree of the grammar is a phrase of the level of the tree. -/
theorem of_spells (spelled : e.Spells ts) (wf : e.WellFormed) : Phrase e.level ts := by
  induction spelled with
  | literal kind => exact .tighter (.literal kind)
  | grouping isOpening isClosing _ inner =>
    exact .tighter (.grouping isOpening isClosing ((inner wf).mono (Nat.zero_le _)))
  | reference => exact .tighter (.reference wf)
  | assign isEqual _ value =>
    have target : Phrase 9 [_] := .reference wf.1
    exact .assignment isEqual (target.mono (by decide)) ((value wf.2).mono (Nat.zero_le _))
  | get isDot _ object =>
    obtain ⟨level, objectFormed, isName⟩ := wf
    exact .property isDot isName (level ▸ object objectFormed)
  | set isDot isEqual _ _ object value =>
    obtain ⟨level, objectFormed, isName, valueFormed⟩ := wf
    have target := Phrase.property isDot isName (level ▸ object objectFormed)
    have whole := Phrase.assignment isEqual (target.mono (by decide))
      ((value valueFormed).mono (Nat.zero_le _))
    rw [List.append_assoc] at whole
    exact whole
  | unary _ operand =>
    obtain ⟨is, level, operandFormed⟩ := wf
    exact .unary is ((operand operandFormed).mono level)
  | binary _ _ left right | logical _ _ left right =>
    obtain ⟨p, is, _, leftLevel, rightLevel, leftFormed, rightFormed⟩ := wf
    rw [Expr.level, is]
    exact .operator is ((left leftFormed).mono leftLevel) ((right rightFormed).mono rightLevel)

end Phrase

inductive Expectation where
  | operand
  | propertyName
  | operator

/-- What has to come next behind some tokens, and the number of brackets that are open. -/
structure Progress where
  expected : Expectation
  depth : Nat

namespace Progress

/-- The progress behind one more token, if it has a place there. -/
def step : Progress → TokenKind → Option Progress
  | ⟨.operand, depth⟩, k =>
    if (Reading.literal? k).isSome ∨ k = .identifier then some ⟨.operator, depth⟩
    else if Reading.isUnaryOperator k then some ⟨.operand, depth⟩
    else if k = .punctuator .leftParen then some ⟨.operand, depth + 1⟩
    else none
  | ⟨.propertyName, depth⟩, k => if k = .identifier then some ⟨.operator, depth⟩ else none
  | ⟨.operator, depth⟩, k =>
    if k = .punctuator .dot then some ⟨.propertyName, depth⟩
    else if k = .punctuator .equal ∨ k.precedence?.isSome then some ⟨.operand, depth⟩
    else if k = .punctuator .rightParen ∧ 0 < depth then some ⟨.operator, depth - 1⟩
    else none

def run (p : Progress) (ts : List Token) : Option Progress :=
  ts.foldlM (fun q t => q.step t.kind) p

variable {p q : Progress} {t : Token} {ts us : List Token} {depth : Nat}

@[simp] theorem run_nil (p : Progress) : p.run [] = some p := rfl

theorem run_cons (h : p.step t.kind = some q) : p.run (t :: ts) = q.run ts := by
  simp [run, h]

theorem run_append (h : p.run ts = some q) : p.run (ts ++ us) = q.run us := by
  rw [run, List.foldlM_append]
  exact congrArg (· >>= fun r => r.run us) h

theorem step_literal {v : Value} (h : t.kind = v.tokenKind) :
    step ⟨.operand, depth⟩ t.kind = some ⟨.operator, depth⟩ := by
  simp [step, h, Reading.literal?_tokenKind]

theorem step_identifier (h : t.kind = .identifier) :
    step ⟨.operand, depth⟩ t.kind = some ⟨.operator, depth⟩ := by
  simp [step, h]

theorem step_unary (h : Reading.isUnaryOperator t.kind = true) :
    step ⟨.operand, depth⟩ t.kind = some ⟨.operand, depth⟩ := by
  rcases Reading.isUnaryOperator_iff.1 h with h | h | h <;> rw [h] <;> rfl

theorem step_leftParen (h : t.kind = .punctuator .leftParen) :
    step ⟨.operand, depth⟩ t.kind = some ⟨.operand, depth + 1⟩ := by
  rw [h]
  rfl

theorem step_dot (h : t.kind = .punctuator .dot) :
    step ⟨.operator, depth⟩ t.kind = some ⟨.propertyName, depth⟩ := by
  rw [h]
  rfl

theorem step_propertyName (h : t.kind = .identifier) :
    step ⟨.propertyName, depth⟩ t.kind = some ⟨.operator, depth⟩ := by
  rw [h]
  rfl

theorem step_equal (h : t.kind = .punctuator .equal) :
    step ⟨.operator, depth⟩ t.kind = some ⟨.operand, depth⟩ := by
  rw [h]
  rfl

theorem step_operator {n : Nat} (h : t.kind.precedence? = some n) :
    step ⟨.operator, depth⟩ t.kind = some ⟨.operand, depth⟩ := by
  have notDot : t.kind ≠ .punctuator .dot := by
    intro dot
    rw [dot] at h
    cases h
  simp [step, notDot, h]

theorem step_rightParen (h : t.kind = .punctuator .rightParen) :
    step ⟨.operator, depth + 1⟩ t.kind = some ⟨.operator, depth⟩ := by
  rw [h]
  rfl

/-- A phrase leads from where an operand has to come to behind an operand, whatever the
brackets around it. -/
theorem run_phrase {level : Nat} (h : Phrase level ts) (depth : Nat) :
    run ⟨.operand, depth⟩ ts = some ⟨.operator, depth⟩ := by
  induction h generalizing depth with
  | assignment isEqual _ _ target value =>
    rw [run_append (target depth), run_cons (step_equal isEqual), value]
  | operator is _ _ left right =>
    rw [run_append (left depth), run_cons (step_operator is), right]
  | unary is _ operand =>
    rw [run_cons (step_unary (Reading.isUnaryOperator_iff.2 is)), operand]
  | property isDot isName _ object =>
    rw [run_append (object depth), run_cons (step_dot isDot), run_cons (step_propertyName isName),
      run_nil]
  | literal kind => rw [run_cons (step_literal kind), run_nil]
  | reference isName => rw [run_cons (step_identifier isName), run_nil]
  | grouping isOpening isClosing _ inner =>
    rw [List.cons_append, run_cons (step_leftParen isOpening), run_append (inner (depth + 1)),
      run_cons (step_rightParen isClosing), run_nil]
  | tighter _ ih => exact ih depth

/-- Nothing of what is left can follow: its first token has no place here, or nothing is
left and a sentence cannot end here. -/
def Refuses (p : Progress) : List Token → Prop
  | [] => p ≠ ⟨.operator, 0⟩
  | t :: _ => p.step t.kind = none

/-- Behind tokens that lead to a state, a token that the state refuses begins no sentence. -/
theorem not_phrase_of_refuses {level : Nat} (read : run ⟨.operand, 0⟩ ts = some p)
    (refuses : p.Refuses (t :: us)) (more : List Token) : ¬ Phrase level (ts ++ t :: more) := by
  intro h
  have whole := run_phrase h 0
  have stuck : p.step t.kind = none := refuses
  rw [run_append read] at whole
  simp [run, stuck] at whole

theorem not_phrase_of_refuses_end {level : Nat} (read : run ⟨.operand, 0⟩ ts = some p)
    (refuses : p.Refuses []) : ¬ Phrase level ts := by
  intro h
  exact refuses (Option.some.inj (read.symm.trans (run_phrase h 0)))

end Progress

end ScopedExpr
