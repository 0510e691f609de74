import ScopedExpr.Diagnostic
import ScopedExpr.Proofs.ExpressionRecognition
import ScopedExpr.Proofs.MaximalReading
import ScopedExpr.Proofs.SentencePrefix

/-!
# Where reading gets stuck

When reading fails because of the next token, the tokens before it begin a sentence and no
sentence goes on with it. A rule that fails adds what it had taken to what its failing part
had: the phrase that the part begins is completed to a phrase of the rule, and the progress
through it is the same behind what the rule had taken.
-/

namespace ScopedExpr

/-- The fault is that the next token cannot come here. -/
def ParseFault.LiesAhead (f : ParseFault) : Prop := f ≠ .invalidTarget ∧ f ≠ .nestedTooDeeply

namespace Reading

section Sentence

variable {t : Token} {ts : List Token}

theorem EndsSentence.head {t : Token} (ends : EndsSentence (t :: ts)) :
    t.kind ≠ .punctuator .dot ∧ t.kind ≠ .punctuator .equal ∧ t.kind.precedence? = none := by
  obtain ⟨operators, notEqual⟩ := ends
  obtain ⟨notDot, looser⟩ := operators t ts rfl
  refine ⟨notDot, notEqual t ts rfl, ?_⟩
  rw [Option.eq_none_iff_forall_ne_some]
  intro p is
  obtain ⟨i, -, rfl⟩ := exists_level_of_precedence? is
  exact absurd (looser _ is) (by omega)

/-- Behind a sentence in no bracket, nothing but its end can come. -/
theorem EndsSentence.refuses {t : Token} (ends : EndsSentence (t :: ts)) :
    Progress.Refuses ⟨.operator, 0⟩ (t :: ts) := by
  obtain ⟨notDot, notEqual, notOperator⟩ := ends.head
  simp [Progress.Refuses, Progress.step, notDot, notEqual, notOperator]

/-- Behind a sentence in brackets, nothing but a closing bracket can come. -/
theorem EndsSentence.refuses_in_brackets (ends : EndsSentence ts)
    (notClosing : ∀ t us, ts = t :: us → t.kind ≠ .punctuator .rightParen) (depth : Nat) :
    Progress.Refuses ⟨.operator, depth + 1⟩ ts := by
  cases ts with
  | nil => simp [Progress.Refuses]
  | cons t us =>
    obtain ⟨notDot, notEqual, notOperator⟩ := ends.head
    simp [Progress.Refuses, Progress.step, notDot, notEqual, notOperator, notClosing t us rfl]

end Sentence

/-- A failure at the next token: what was taken begins a phrase of the level, and the
progress through it refuses what is left. -/
structure Stuck (level : Nat) (r : TokenReader) (e : ParseError) (r' : TokenReader) : Prop where
  here : e.token = r'.current
  taken : ∃ ts, r.rest = ts ++ r'.rest ∧ (∃ more, Phrase level (ts ++ more)) ∧
    ∀ depth, ∃ p, Progress.run ⟨.operand, depth⟩ ts = some p ∧ p.Refuses r'.rest

/-- Whenever the step fails because of the next token, it gets stuck there. -/
def Sticks (step : Reading Subtree) (level : Nat) : Prop :=
  ∀ r e r', step.run r = .error e r' → e.fault.LiesAhead → Stuck level r e r'

def closingParen : Token := ⟨.punctuator .rightParen, ")", 0⟩

def someName : Token := ⟨.identifier, "x", 0⟩

section Failure

variable {r r₁ r' : TokenReader} {e : ParseError} {t : Subtree} {ts : List Token}
  {operator equals opening : Token} {m n entries : Nat} {sub : Reading Subtree}

theorem Stuck.mono (h : Stuck n r e r') (le : m ≤ n) : Stuck m r e r' := by
  obtain ⟨here, ts, split, ⟨more, phrase⟩, refused⟩ := h
  exact ⟨here, ts, split, ⟨more, phrase.mono le⟩, refused⟩

/-- A rule gets stuck where its part does, behind the tokens that lead to the part. -/
theorem Stuck.behind (ts : List Token) (part : Stuck n r₁ e r') (split : r.rest = ts ++ r₁.rest)
    (leads : ∀ depth, ∃ inner, Progress.run ⟨.operand, depth⟩ ts = some ⟨.operand, inner⟩)
    (completes : ∀ us, Phrase n us → ∃ more, Phrase m (ts ++ us ++ more)) : Stuck m r e r' := by
  obtain ⟨here, us, rest, ⟨more, phrase⟩, refused⟩ := part
  obtain ⟨closing, whole⟩ := completes _ phrase
  refine ⟨here, ts ++ us, ?_, ⟨more ++ closing, ?_⟩, fun depth => ?_⟩
  · rw [split, rest, List.append_assoc]
  · simpa using whole
  · obtain ⟨inner, led⟩ := leads depth
    obtain ⟨p, read, refuses⟩ := refused inner
    exact ⟨p, (Progress.run_append led).trans read, refuses⟩

/-- A tree that is read is a phrase. -/
theorem Reads.phrase (h : Reads r t r') (le : n ≤ t.expr.level) :
    ∃ ts, r.rest = ts ++ r'.rest ∧ Phrase n ts := by
  obtain ⟨ts, spelled, rest⟩ := h.spelled
  exact ⟨ts, rest, (Phrase.of_spells spelled h.wellFormed).mono le⟩

/-- Behind a phrase and a token that joins it to what follows, a rule gets stuck where the
reading of what follows does. -/
theorem Stuck.of_joined {p : Nat} (left : Reads r t r₁) (level : p ≤ t.expr.level)
    (taken : r₁.rest = operator :: ts)
    (step : ∀ depth, Progress.step ⟨.operator, depth⟩ operator.kind = some ⟨.operand, depth⟩)
    (joins : ∀ us vs, Phrase p us → Phrase n vs → Phrase m (us ++ operator :: vs))
    (right : Stuck n { r₁ with rest := ts } e r') : Stuck m r e r' := by
  obtain ⟨us, rest, phrase⟩ := left.phrase level
  apply right.behind (us ++ [operator])
  · simp [rest, taken]
  · intro depth
    refine ⟨depth, ?_⟩
    rw [Progress.run_append (Progress.run_phrase phrase depth), Progress.run_cons (step depth),
      Progress.run_nil]
  · intro vs following
    refine ⟨[], ?_⟩
    simpa using joins us vs phrase following

theorem Stuck.of_rightOperand {p : Nat} (left : Reads r t r₁) (level : p ≤ t.expr.level)
    (taken : r₁.rest = operator :: ts) (is : operator.kind.precedence? = some p)
    (right : Stuck (p + 1) { r₁ with rest := ts } e r') : Stuck p r e r' :=
  .of_joined left level taken (fun _ => Progress.step_operator is)
    (fun _ _ left right => .operator is left right) right

theorem Stuck.of_value (target : Reads r t r₁) (level : 1 ≤ t.expr.level)
    (taken : r₁.rest = equals :: ts) (isEqual : equals.kind = .punctuator .equal)
    (value : Stuck 0 { r₁ with rest := ts } e r') : Stuck 0 r e r' :=
  .of_joined target level taken (fun _ => Progress.step_equal isEqual)
    (fun _ _ target value => .assignment isEqual target value) value

theorem Stuck.of_operand (taken : r.rest = operator :: ts)
    (is : isUnaryOperator operator.kind = true)
    (operand : Stuck 7 { r with rest := ts } e r') : Stuck 7 r e r' := by
  apply operand.behind [operator] taken
  · intro depth
    refine ⟨depth, ?_⟩
    rw [Progress.run_cons (Progress.step_unary is), Progress.run_nil]
  · intro vs phrase
    refine ⟨[], ?_⟩
    simpa using Phrase.unary (isUnaryOperator_iff.1 is) phrase

theorem Stuck.of_inner (taken : r.rest = opening :: ts)
    (isOpening : opening.kind = .punctuator .leftParen)
    (inner : Stuck 0 { r with rest := ts } e r') : Stuck 9 r e r' := by
  apply inner.behind [opening] taken
  · intro depth
    refine ⟨depth + 1, ?_⟩
    rw [Progress.run_cons (Progress.step_leftParen isOpening), Progress.run_nil]
  · intro vs phrase
    exact ⟨[closingParen], Phrase.grouping isOpening rfl phrase⟩

theorem fault_of_run_joinHeights {a b : Nat} {place : Token}
    (h : (joinHeights a b place).run r = .error e r') : e.fault = .nestedTooDeeply := by
  rw [run_joinHeights] at h
  split at h <;> cases h
  rfl

theorem stuck_chainFrom {i : Nat} (h : i < levels.length)
    (yields : Yields sub (Expr.Fits (i + 2) entries)) (sticks : Sticks sub (i + 2)) (bound : Nat)
    {r₀ : TokenReader} {left : Subtree} (read : Reads r₀ left r)
    (fits : left.expr.Fits (i + 1) entries) (ahead : e.fault.LiesAhead)
    (run : (chainFrom levels[i] sub bound left).run r = .error e r') :
    Stuck (i + 1) r₀ e r' := by
  induction bound generalizing left r with
  | zero => cases run
  | succ bound ih =>
    obtain failed | ⟨o, r₁, accepted, run₁⟩ := run_bind_eq_error_iff.1 run
    · exact absurd failed run_accept?_ne_error
    obtain ⟨rfl, rfl⟩ | ⟨operator, ts, rfl, taken, is, rfl⟩ := of_run_accept? accepted
    · cases run₁
    have precedence := (isOperator_levels_iff h).1 is
    obtain failed | ⟨right, r₂, right_run, run₂⟩ := run_bind_eq_error_iff.1 run₁
    · exact .of_rightOperand read fits.1 taken precedence (sticks _ _ _ failed ahead)
    obtain failed | ⟨height, r₃, joined, run₃⟩ := run_bind_eq_error_iff.1 run₂
    · exact absurd (fault_of_run_joinHeights failed) ahead.2
    obtain ⟨within, rfl, rfl⟩ := run_joinHeights_eq_ok_iff.1 joined
    obtain ⟨rightRead, rightFits⟩ := yields _ _ _ right_run
    refine ih (read.node h taken precedence rightRead fits.1 rightFits.1 within) ?_ run₃
    refine ⟨(level_node h precedence).ge, ?_⟩
    rw [entries_node]
    exact max_le fits.2 rightFits.2

theorem sticks_climb (yields : Yields sub (Expr.Fits 7 entries)) (sticks : Sticks sub 7) {i : Nat}
    (h : i ≤ levels.length) : Sticks (climb (levels.drop i) sub) (i + 1) := by
  induction h using Nat.decreasingInduction with
  | self =>
    rw [List.drop_length]
    exact sticks
  | of_succ i h ih =>
    intro r e r' run ahead
    rw [List.drop_eq_getElem_cons h] at run
    have yields := yields_climb yields (show i + 1 ≤ levels.length from h)
    obtain failed | ⟨first, r₁, first_run, run₁⟩ := run_bind_eq_error_iff.1 run
    · exact (ih _ _ _ failed ahead).mono (Nat.le_succ _)
    · obtain ⟨read, level, within⟩ := yields _ _ _ first_run
      exact stuck_chainFrom h yields ih _ read ⟨by omega, within⟩ ahead run₁

theorem stuck_propertiesFrom (bound : Nat) {r₀ : TokenReader} {object : Subtree}
    (read : Reads r₀ object r) (level : 8 ≤ object.expr.level) (ahead : e.fault.LiesAhead)
    (run : (propertiesFrom bound object).run r = .error e r') : Stuck 8 r₀ e r' := by
  induction bound generalizing object r with
  | zero => cases run
  | succ bound ih =>
    obtain failed | ⟨o, r₁, accepted, run₁⟩ := run_bind_eq_error_iff.1 run
    · exact absurd failed run_accept?_ne_error
    obtain ⟨rfl, rfl⟩ | ⟨dot, ts, rfl, taken, is, rfl⟩ := of_run_accept? accepted
    · cases run₁
    have isDot := beq_iff_eq.1 is
    obtain failed | ⟨o, r₁, accepted, run₂⟩ := run_bind_eq_error_iff.1 run₁
    · exact absurd failed run_accept?_ne_error
    obtain ⟨rfl, rfl⟩ | ⟨name, us, rfl, named, is, rfl⟩ := of_run_accept? accepted
    · cases run₂
      obtain ⟨us, rest, phrase⟩ := read.phrase level
      refine ⟨rfl, us ++ [dot], ?_, ⟨[someName], ?_⟩, fun depth => ⟨⟨.propertyName, depth⟩, ?_, ?_⟩⟩
      · simp [rest, taken]
      · simpa using Phrase.property isDot (rfl : someName.kind = .identifier) phrase
      · rw [Progress.run_append (Progress.run_phrase phrase depth),
          Progress.run_cons (Progress.step_dot isDot), Progress.run_nil]
      · have notName := stopsBefore_of_run_accept? accepted
        cases ts with
        | nil => simp [Progress.Refuses]
        | cons t vs => simpa [Progress.Refuses, Progress.step] using notName t vs rfl
    have isName := beq_iff_eq.1 is
    obtain failed | ⟨height, r₃, joined, run₃⟩ := run_bind_eq_error_iff.1 run₂
    · exact absurd (fault_of_run_joinHeights failed) ahead.2
    obtain ⟨within, rfl, rfl⟩ := run_joinHeights_eq_ok_iff.1 joined
    rw [Nat.max_eq_left (Nat.zero_le _)] at within run₃
    rw [show ts = name :: us from named] at taken
    exact ih (read.get taken isDot isName level within) le_rfl run₃

/-- Where no operand begins, an operand was to come, and a name could have. -/
theorem stuck_of_no_operand (here : e.token = r.current)
    (none : ∀ t ts, r.rest = t :: ts → isUnaryOperator t.kind = false ∧ literal? t.kind = none ∧
      t.kind ≠ .identifier ∧ t.kind ≠ .punctuator .leftParen) : Stuck 9 r e r := by
  refine ⟨here, [], rfl, ⟨[someName], .reference rfl⟩, fun depth => ⟨_, rfl, ?_⟩⟩
  cases rest : r.rest with
  | nil => simp [Progress.Refuses]
  | cons t ts =>
    obtain ⟨notUnary, literal, identifier, paren⟩ := none t ts rest
    simp [Progress.Refuses, Progress.step, notUnary, literal, identifier, paren]

theorem stuck_group (yields : Yields (assignment entries) (·.entries + 1 ≤ entries))
    (sticks : Sticks (assignment entries) 0) (taken : r.rest = opening :: ts)
    (isOpening : opening.kind = .punctuator .leftParen) (ahead : e.fault.LiesAhead)
    (run : (group (assignment entries) opening).run { r with rest := ts } = .error e r') :
    Stuck 9 r e r' := by
  obtain failed | ⟨inner, r₁, inner_run, run₁⟩ := run_bind_eq_error_iff.1 run
  · exact .of_inner taken isOpening (sticks _ _ _ failed ahead)
  obtain failed | ⟨o, r₂, accepted, run₂⟩ := run_bind_eq_error_iff.1 run₁
  · exact absurd failed run_accept?_ne_error
  obtain ⟨rfl, rfl⟩ | ⟨closing, us, rfl, -, -, rfl⟩ := of_run_accept? accepted
  · cases run₂
    obtain ⟨us, rest, phrase⟩ := (yields _ _ _ inner_run).1.phrase (Nat.zero_le _)
    have notClosing := stopsBefore_of_run_accept? accepted
    refine ⟨rfl, opening :: us, ?_, ⟨[closingParen], .grouping isOpening rfl phrase⟩,
      fun depth => ⟨⟨.operator, depth + 1⟩, ?_, ?_⟩⟩
    · rw [taken, List.cons_append]
      exact congrArg (opening :: ·) rest
    · rw [Progress.run_cons (Progress.step_leftParen isOpening), Progress.run_phrase phrase]
    · exact (endsSentence_assignment inner_run).refuses_in_brackets
        (fun t us rest => beq_eq_false_iff_ne.1 (notClosing t us rest)) depth
  · obtain failed | ⟨height, r₃, joined, run₃⟩ := run_bind_eq_error_iff.1 run₂
    · exact absurd (fault_of_run_joinHeights failed) ahead.2
    · cases run₃

theorem stuck_primary (yields : Yields (assignment entries) (·.entries + 1 ≤ entries))
    (sticks : Sticks (assignment entries) 0) (ahead : e.fault.LiesAhead)
    (notUnary : StopsBefore isUnaryOperator r)
    (run : (primary (assignment entries)).run r = .error e r') : Stuck 9 r e r' := by
  cases hr : r.rest with
  | nil =>
    rw [run_primary_nil hr] at run
    cases run
    exact stuck_of_no_operand rfl (by simp [hr])
  | cons token ts =>
    obtain ⟨v, is⟩ | is | is | ⟨literal, identifier, paren⟩ := primary_cases token.kind
    · rw [run_primary_literal hr is] at run
      cases run
    · rw [run_primary_identifier hr is] at run
      cases run
    · rw [run_primary_group hr is] at run
      exact stuck_group yields sticks hr is ahead run
    · rw [run_primary_other hr literal identifier paren] at run
      cases run
      refine stuck_of_no_operand (by simp [TokenReader.current, hr]) ?_
      intro t us rest
      obtain ⟨rfl, rfl⟩ := List.cons.inj (hr.symm.trans rest)
      exact ⟨notUnary _ _ hr, literal, identifier, paren⟩

theorem sticks_operand_succ (yields : Yields (assignment entries) (·.entries + 1 ≤ entries))
    (assignment : Sticks (assignment entries) 0) (operand : Sticks (operand entries) 7) :
    Sticks (Reading.operand (entries + 1)) 7 := by
  intro r e r' run ahead
  obtain failed | ⟨o, r₁, accepted, run₁⟩ := run_bind_eq_error_iff.1 run
  · exact absurd failed run_accept?_ne_error
  obtain ⟨rfl, rfl⟩ | ⟨operator, ts, rfl, taken, is, rfl⟩ := of_run_accept? accepted
  · have notUnary := stopsBefore_of_run_accept? accepted
    obtain failed | ⟨object, r₁, object_run, run₂⟩ := run_bind_eq_error_iff.1 run₁
    · exact (stuck_primary yields assignment ahead notUnary failed).mono (by decide)
    · obtain ⟨read, level, -⟩ := yields_primary yields _ _ _ object_run
      exact (stuck_propertiesFrom _ read level ahead run₂).mono (by decide)
  · obtain failed | ⟨right, r₁, right_run, run₂⟩ := run_bind_eq_error_iff.1 run₁
    · exact .of_operand taken is (operand _ _ _ failed ahead)
    · obtain failed | ⟨height, r₂, joined, run₃⟩ := run_bind_eq_error_iff.1 run₂
      · exact absurd (fault_of_run_joinHeights failed) ahead.2
      · cases run₃

theorem sticks_assignment_succ (yields : Yields (operand entries) (Expr.Fits 7 entries))
    (assignment : Sticks (assignment entries) 0) (operand : Sticks (operand entries) 7) :
    Sticks (Reading.assignment (entries + 1)) 0 := by
  intro r e r' run ahead
  obtain failed | ⟨target, r₁, target_run, run₁⟩ := run_bind_eq_error_iff.1 run
  · exact (sticks_climb yields operand (Nat.zero_le _) _ _ _ failed ahead).mono (Nat.zero_le _)
  obtain ⟨targetRead, level, -⟩ := yields_climb yields (Nat.zero_le _) _ _ _ target_run
  obtain failed | ⟨o, r₂, accepted, run₂⟩ := run_bind_eq_error_iff.1 run₁
  · exact absurd failed run_accept?_ne_error
  obtain ⟨rfl, rfl⟩ | ⟨equals, ts, rfl, taken, is, rfl⟩ := of_run_accept? accepted
  · cases run₂
  obtain failed | ⟨value, r₃, value_run, run₃⟩ := run_bind_eq_error_iff.1 run₂
  · exact .of_value targetRead level taken (beq_iff_eq.1 is) (assignment _ _ _ failed ahead)
  -- behind the value only the target and the bounds are checked
  cases made : assignTo? target.expr value.expr with
  | none =>
    rw [made] at run₃
    cases run₃
    exact absurd rfl ahead.1
  | some expr =>
    rw [made] at run₃
    obtain failed | ⟨height, r₄, joined, run₄⟩ := run_bind_eq_error_iff.1 run₃
    · exact absurd (fault_of_run_joinHeights failed) ahead.2
    · cases run₄

theorem sticks_rules (entries : Nat) :
    Sticks (assignment entries) 0 ∧ Sticks (operand entries) 7 := by
  induction entries with
  | zero =>
    constructor
    · rintro r e r' ⟨⟩ ahead
      exact absurd rfl ahead.2
    · rintro r e r' ⟨⟩ ahead
      exact absurd rfl ahead.2
  | succ entries ih =>
    have yields := yields_rules entries
    exact ⟨sticks_assignment_succ yields.2 ih.1 ih.2, sticks_operand_succ yields.1 ih.1 ih.2⟩

/-- A whole that is not read gets stuck, also when an expression is followed by more. -/
theorem stuck_wholeExpression (run : wholeExpression.run r = .error e r')
    (ahead : e.fault.LiesAhead) :
    e.token = r'.current ∧ ∃ ts, r.rest = ts ++ r'.rest ∧ (∃ more, Phrase 0 (ts ++ more)) ∧
      ∃ p, Progress.run ⟨.operand, 0⟩ ts = some p ∧ p.Refuses r'.rest := by
  have split : ((assignment maxNesting >>= fun t => pure t.expr) >>= fun e => do
      if (← get).rest.isEmpty then return e else failHere .endExpected).run r = .error e r' := run
  obtain failed | ⟨expr, r₁, read, run₁⟩ := run_bind_eq_error_iff.1 split
  · obtain failed | ⟨t, r₂, t_run, done⟩ := run_bind_eq_error_iff.1 failed
    · obtain ⟨here, ts, rest, begins, refused⟩ := (sticks_rules maxNesting).1 _ _ _ failed ahead
      exact ⟨here, ts, rest, begins, refused 0⟩
    · cases done
  · obtain ⟨t, r₂, t_run, done⟩ := run_bind_eq_ok_iff.1 read
    cases done
    have last : (if r₁.rest.isEmpty then (pure t.expr : Reading Expr)
        else failHere .endExpected).run r₁ = .error e r' := run₁
    obtain ⟨ts, rest, phrase⟩ := ((yields_rules maxNesting).1 _ _ _ t_run).1.phrase (Nat.zero_le _)
    have ends := endsSentence_assignment t_run
    cases hr : r₁.rest with
    | nil =>
      rw [hr] at last
      cases last
    | cons t us =>
      rw [hr] at last
      cases last
      refine ⟨rfl, ts, rest, ⟨[], by simpa using phrase⟩, _, Progress.run_phrase phrase 0, ?_⟩
      rw [hr] at ends ⊢
      exact ends.refuses

end Failure

end Reading

theorem Token.mention_of_ne_end {t : Token} (h : t.kind ≠ .endOfText) : t.mention = t.lexeme := by
  unfold mention
  split
  · contradiction
  · rfl

theorem Token.mention_of_end {t : Token} (h : t.kind = .endOfText) : t.mention = "end" := by
  rw [mention, h]

open Reading

/-- Reading that fails at the next token blames the first impossible one. What was taken
begins a sentence; no sentence goes on with the blamed token, and where the tokens end,
what was taken is no sentence. -/
theorem error_at_first_impossible_token {tokens : List Token} {e : ParseError}
    {behind : TokenReader}
    (rejected : (TokenReader.ofTokens tokens).attempt wholeExpression = (.error e, behind))
    (ahead : e.fault.message ∈ ["Expect expression.", "Expect ')' after expression.",
      "Expect property name after '.'.", "Expect end of expression."]) :
    ∃ taken, (tokens.filter TokenReader.isCode).takeWhile (·.kind != .endOfText) =
        taken ++ behind.rest ∧
      (∃ more, Phrase 0 (taken ++ more)) ∧
      (∀ t rest, behind.rest = t :: rest →
        e.diagnostic = .parse t.line t.lexeme e.fault.message ∧
          ∀ more, ¬ Phrase 0 (taken ++ t :: more)) ∧
      (behind.rest = [] →
        e.diagnostic = .parse (TokenReader.ofTokens tokens).stop.line "end" e.fault.message ∧
          ¬ Phrase 0 taken) := by
  have run := TokenReader.attempt_eq_error_iff.1 rejected
  have liesAhead : e.fault.LiesAhead := by
    constructor <;> intro fault <;> rw [fault] at ahead <;> revert ahead <;> decide
  obtain ⟨here, taken, split, begins, p, read, refuses⟩ := stuck_wholeExpression run liesAhead
  have forward := forward_wholeExpression.of_error run
  refine ⟨taken, split, begins, fun t rest left => ?_, fun left => ?_⟩
  · have mem : t ∈ (TokenReader.ofTokens tokens).rest := by
      rw [split, left]
      simp
    have blamed : e.token = t := by
      rw [here, TokenReader.current, left]
      rfl
    rw [left] at refuses
    refine ⟨?_, Progress.not_phrase_of_refuses read refuses⟩
    rw [ParseError.diagnostic, blamed,
      Token.mention_of_ne_end (TokenReader.kind_ne_of_mem_ofTokens mem)]
  · have blamed : e.token = (TokenReader.ofTokens tokens).stop := by
      rw [here, TokenReader.current, left]
      exact forward.stop
    rw [left] at refuses
    refine ⟨?_, Progress.not_phrase_of_refuses_end read refuses⟩
    rw [ParseError.diagnostic, blamed, Token.mention_of_end (TokenReader.kind_stop_ofTokens tokens)]

/-- `a = (1` and a comma, with a comment between. -/
def commaInBrackets : List Token :=
  [⟨.identifier, "a", 1⟩, ⟨.punctuator .equal, "=", 1⟩, ⟨.punctuator .leftParen, "(", 1⟩,
    ⟨.integer 1, "1", 1⟩, ⟨.comment " one", "# one", 1⟩, ⟨.punctuator .comma, ",", 2⟩,
    ⟨.endOfText, "", 2⟩]

theorem commaInBrackets_rejected :
    (TokenReader.ofTokens commaInBrackets).attempt wholeExpression =
      (.error ⟨.closingParenExpected, ⟨.punctuator .comma, ",", 2⟩⟩,
        ⟨[⟨.punctuator .comma, ",", 2⟩], ⟨.endOfText, "", 2⟩, 1⟩) := rfl

theorem comma_impossible_in_brackets :
    ParseFault.message .closingParenExpected ∈ ["Expect expression.",
      "Expect ')' after expression.", "Expect property name after '.'.",
      "Expect end of expression."] ∧
    ∃ taken, (commaInBrackets.filter TokenReader.isCode).takeWhile (·.kind != .endOfText) =
        taken ++ [⟨.punctuator .comma, ",", 2⟩] ∧
      (∃ more, Phrase 0 (taken ++ more)) ∧
      ∀ more, ¬ Phrase 0 (taken ++ ⟨.punctuator .comma, ",", 2⟩ :: more) := by
  refine ⟨by decide, ?_⟩
  obtain ⟨taken, split, begins, blamed, -⟩ :=
    error_at_first_impossible_token commaInBrackets_rejected (by decide)
  exact ⟨taken, split, begins, (blamed _ _ rfl).2⟩

end ScopedExpr
