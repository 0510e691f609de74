import ScopedExpr.Proofs.GrammarCompleteness

/-!
# Where reading stops

A step that succeeds stops only where nothing goes on with its tree: the loops take a token
in every round, so they never run out of rounds before they run out of operators.
-/

namespace ScopedExpr

namespace Reading

variable {sub : Reading Subtree} {r r' : TokenReader} {t : Subtree} {ts : List Token}

theorem precedence?_lt {k : TokenKind} {p : Nat} (h : k.precedence? = some p) : p < 7 := by
  obtain ⟨i, bound, rfl⟩ := exists_level_of_precedence? h
  rw [length_levels] at bound
  omega

/-- No operator of a level is left where its loop stops. -/
theorem Ends.of_not_operator {i : Nat} (h : i < levels.length) (ends : Ends (i + 2) ts)
    (notOperator : ∀ t us, ts = t :: us → levels[i].isOperator t.kind = false) :
    Ends (i + 1) ts := by
  intro t us rest
  obtain ⟨notDot, looser⟩ := ends t us rest
  refine ⟨notDot, fun p precedence => ?_⟩
  have le := looser p precedence
  have ne : p ≠ i + 1 := by
    rintro rfl
    have is := (isOperator_levels_iff h).2 precedence
    rw [notOperator t us rest] at is
    cases is
  omega

/-- Whenever the step succeeds, what is left does not go on with a tree of the level. -/
def Exhausts (step : Reading Subtree) (level : Nat) : Prop :=
  ∀ r t r', step.run r = .ok t r' → Ends level r'.rest

theorem ends_chainFrom {i : Nat} (h : i < levels.length) (forward : Forward sub)
    (hsub : Exhausts sub (i + 2)) (bound : Nat) {left : Subtree} (ends : Ends (i + 2) r.rest)
    (enough : r.rest.length ≤ bound)
    (run : (chainFrom levels[i] sub bound left).run r = .ok t r') : Ends (i + 1) r'.rest := by
  induction bound generalizing left r with
  | zero =>
    cases run
    rw [List.eq_nil_of_length_eq_zero (Nat.le_zero.1 enough)]
    exact .nil _
  | succ bound ih =>
    obtain ⟨stops, rfl, rfl⟩ | ⟨operator, ts, right, r₁, taken, -, right_run, -, run₁⟩ :=
      cases_of_run_chainFrom run
    · exact ends.of_not_operator h stops
    · have shorter := (forward.of_ok right_run).suffix.length_le
      rw [taken, List.length_cons] at enough
      exact ih (hsub _ _ _ right_run) (Nat.le_trans shorter (Nat.le_of_succ_le_succ enough)) run₁

theorem exhausts_climb (forward : Forward sub) (hsub : Exhausts sub 7) {i : Nat}
    (h : i ≤ levels.length) : Exhausts (climb (levels.drop i) sub) (i + 1) := by
  -- downwards from the tightest level, where the list of levels is empty
  induction h using Nat.decreasingInduction with
  | self =>
    rw [List.drop_length]
    exact hsub
  | of_succ i h ih =>
    intro r t r' run
    rw [List.drop_eq_getElem_cons h] at run
    obtain ⟨first, r₁, first_run, run₁⟩ := run_bind_eq_ok_iff.1 run
    exact ends_chainFrom h (forward.climb _) ih _ (ih _ _ _ first_run) le_rfl run₁

theorem ends_propertiesFrom (bound : Nat) {object : Subtree} (enough : r.rest.length ≤ bound)
    (run : (propertiesFrom bound object).run r = .ok t r') : Ends 7 r'.rest := by
  induction bound generalizing object r with
  | zero =>
    cases run
    rw [List.eq_nil_of_length_eq_zero (Nat.le_zero.1 enough)]
    exact .nil _
  | succ bound ih =>
    obtain ⟨stops, rfl, rfl⟩ | ⟨dot, name, ts, taken, -, -, -, run₁⟩ :=
      cases_of_run_propertiesFrom run
    · intro t us rest
      exact ⟨beq_eq_false_iff_ne.1 (stops t us rest), fun p => precedence?_lt⟩
    · rw [taken, List.length_cons, List.length_cons] at enough
      exact ih (by simp only; omega) run₁

theorem exhausts_operand (entries : Nat) : Exhausts (operand entries) 7 := by
  induction entries with
  | zero =>
    intro r t r' run
    cases run
  | succ entries ih =>
    intro r t r' run
    obtain ⟨object, r₁, -, -, run₁⟩ | ⟨operator, ts, right, -, -, right_run, -, rfl⟩ :=
      cases_of_run_operand run
    · exact ends_propertiesFrom _ le_rfl run₁
    · exact ih _ _ _ right_run

/-- Nothing goes on with a sentence: neither its operands nor an assignment to it. -/
def EndsSentence (rest : List Token) : Prop :=
  Ends 1 rest ∧ ∀ t ts, rest = t :: ts → t.kind ≠ .punctuator .equal

theorem endsSentence_assignment {entries : Nat} (run : (assignment entries).run r = .ok t r') :
    EndsSentence r'.rest := by
  induction entries generalizing r t with
  | zero => cases run
  | succ entries ih =>
    obtain ⟨target, r₁, target_run, outcome⟩ := cases_of_run_assignment run
    obtain ⟨stops, rfl, rfl⟩ | ⟨equals, ts, value, e, -, -, value_run, -, -, rfl⟩ := outcome
    · have ends := exhausts_climb (forward_rules entries).2 (exhausts_operand entries)
        (Nat.zero_le _) _ _ _ target_run
      exact ⟨ends, fun t ts rest => beq_eq_false_iff_ne.1 (stops t ts rest)⟩
    · exact ih value_run

end Reading

end ScopedExpr
