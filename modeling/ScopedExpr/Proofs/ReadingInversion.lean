import ScopedExpr.Proofs.ReadingSteps

/-!
# What a rule has done

A rule that succeeds has stopped before a token that it does not want, or it has taken the
tokens that it wants and its parts have succeeded behind them, within the bound on heights.
For each rule this is said once; what holds of all trees that are read follows rule by rule.
-/

namespace ScopedExpr

namespace Reading

def StopsBefore (wanted : TokenKind → Bool) (r : TokenReader) : Prop :=
  ∀ t ts, r.rest = t :: ts → wanted t.kind = false

theorem stopsBefore_of_run_accept? {wanted : TokenKind → Bool} {r r' : TokenReader}
    (h : (accept? wanted).run r = .ok none r') : StopsBefore wanted r := by
  intro t ts rest
  rw [Bool.eq_false_iff]
  intro is
  rw [run_accept?_of_pos rest is] at h
  cases h

variable {r r' : TokenReader} {t left object : Subtree} {sub : Reading Subtree} {level : Level}
  {bound entries : Nat}

theorem cases_of_run_chainFrom
    (run : (chainFrom level sub (bound + 1) left).run r = .ok t r') :
    (StopsBefore level.isOperator r ∧ t = left ∧ r' = r) ∨
      ∃ operator ts right r₁, r.rest = operator :: ts ∧ level.isOperator operator.kind = true ∧
        sub.run { r with rest := ts } = .ok right r₁ ∧
        max left.height right.height + 1 ≤ maxNesting ∧
        (chainFrom level sub bound ⟨level.node left.expr operator right.expr,
          max left.height right.height + 1⟩).run r₁ = .ok t r' := by
  obtain ⟨o, r₁, accepted, run₁⟩ := run_bind_eq_ok_iff.1 run
  obtain ⟨rfl, rfl⟩ | ⟨operator, ts, rfl, taken, is, rfl⟩ := of_run_accept? accepted
  · cases run₁
    exact .inl ⟨stopsBefore_of_run_accept? accepted, rfl, rfl⟩
  · obtain ⟨right, r₂, right_run, run₂⟩ := run_bind_eq_ok_iff.1 run₁
    obtain ⟨height, r₃, joined, run₃⟩ := run_bind_eq_ok_iff.1 run₂
    obtain ⟨within, rfl, rfl⟩ := run_joinHeights_eq_ok_iff.1 joined
    exact .inr ⟨operator, ts, right, r₃, taken, is, right_run, within, run₃⟩

theorem cases_of_run_propertiesFrom
    (run : (propertiesFrom (bound + 1) object).run r = .ok t r') :
    (StopsBefore (· == .punctuator .dot) r ∧ t = object ∧ r' = r) ∨
      ∃ dot name ts, r.rest = dot :: name :: ts ∧ dot.kind = .punctuator .dot ∧
        name.kind = .identifier ∧ object.height + 1 ≤ maxNesting ∧
        (propertiesFrom bound ⟨.get object.expr name, object.height + 1⟩).run
          { r with rest := ts } = .ok t r' := by
  obtain ⟨o, r₁, accepted, run₁⟩ := run_bind_eq_ok_iff.1 run
  obtain ⟨rfl, rfl⟩ | ⟨dot, ts, rfl, taken, isDot, rfl⟩ := of_run_accept? accepted
  · cases run₁
    exact .inl ⟨stopsBefore_of_run_accept? accepted, rfl, rfl⟩
  · obtain ⟨o, r₁, accepted, run₂⟩ := run_bind_eq_ok_iff.1 run₁
    obtain ⟨rfl, rfl⟩ | ⟨name, us, rfl, named, isName, rfl⟩ := of_run_accept? accepted
    · cases run₂
    · obtain ⟨height, r₃, joined, run₃⟩ := run_bind_eq_ok_iff.1 run₂
      obtain ⟨within, rfl, rfl⟩ := run_joinHeights_eq_ok_iff.1 joined
      rw [Nat.max_eq_left (Nat.zero_le _)] at within run₃
      rw [show ts = name :: us from named] at taken
      exact .inr ⟨dot, name, us, taken, beq_iff_eq.1 isDot, beq_iff_eq.1 isName, within, run₃⟩

theorem cases_of_run_operand (run : (operand (entries + 1)).run r = .ok t r') :
    (∃ object r₁, StopsBefore isUnaryOperator r ∧
      (primary (assignment entries)).run r = .ok object r₁ ∧
      (propertiesFrom r₁.rest.length object).run r₁ = .ok t r') ∨
    ∃ operator ts right, r.rest = operator :: ts ∧ isUnaryOperator operator.kind = true ∧
      (operand entries).run { r with rest := ts } = .ok right r' ∧
      right.height + 1 ≤ maxNesting ∧
      t = ⟨.unary operator right.expr, right.height + 1⟩ := by
  obtain ⟨o, r₁, accepted, run₁⟩ := run_bind_eq_ok_iff.1 run
  obtain ⟨rfl, rfl⟩ | ⟨operator, ts, rfl, taken, is, rfl⟩ := of_run_accept? accepted
  · obtain ⟨object, r₁, object_run, run₂⟩ := run_bind_eq_ok_iff.1 run₁
    exact .inl ⟨object, r₁, stopsBefore_of_run_accept? accepted, object_run, run₂⟩
  · obtain ⟨right, r₁, right_run, run₂⟩ := run_bind_eq_ok_iff.1 run₁
    obtain ⟨height, r₂, joined, run₃⟩ := run_bind_eq_ok_iff.1 run₂
    obtain ⟨within, rfl, rfl⟩ := run_joinHeights_eq_ok_iff.1 joined
    cases run₃
    rw [Nat.max_eq_left (Nat.zero_le _)] at within
    refine .inr ⟨operator, ts, right, taken, is, right_run, within, ?_⟩
    rw [Nat.max_eq_left (Nat.zero_le _)]

theorem cases_of_run_assignment (run : (assignment (entries + 1)).run r = .ok t r') :
    ∃ target r₁, (climb levels (operand entries)).run r = .ok target r₁ ∧
      ((StopsBefore (· == .punctuator .equal) r₁ ∧ t = target ∧ r' = r₁) ∨
        ∃ equals ts value e, r₁.rest = equals :: ts ∧ equals.kind = .punctuator .equal ∧
          (assignment entries).run { r₁ with rest := ts } = .ok value r' ∧
          assignTo? target.expr value.expr = some e ∧
          max target.height value.height + 1 ≤ maxNesting ∧
          t = ⟨e, max target.height value.height + 1⟩) := by
  obtain ⟨target, r₁, target_run, run₁⟩ := run_bind_eq_ok_iff.1 run
  refine ⟨target, r₁, target_run, ?_⟩
  obtain ⟨o, r₂, accepted, run₂⟩ := run_bind_eq_ok_iff.1 run₁
  obtain ⟨rfl, rfl⟩ | ⟨equals, ts, rfl, taken, is, rfl⟩ := of_run_accept? accepted
  · cases run₂
    exact .inl ⟨stopsBefore_of_run_accept? accepted, rfl, rfl⟩
  · obtain ⟨value, r₃, value_run, run₃⟩ := run_bind_eq_ok_iff.1 run₂
    cases made : assignTo? target.expr value.expr with
    | none =>
      rw [made] at run₃
      cases run₃
    | some e =>
      rw [made] at run₃
      obtain ⟨height, r₄, joined, run₄⟩ := run_bind_eq_ok_iff.1 run₃
      obtain ⟨within, rfl, rfl⟩ := run_joinHeights_eq_ok_iff.1 joined
      cases run₄
      exact .inr ⟨equals, ts, value, e, taken, beq_iff_eq.1 is, value_run, made, within, rfl⟩

end Reading

end ScopedExpr
