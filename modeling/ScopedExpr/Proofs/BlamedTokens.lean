import ScopedExpr.Proofs.ExpressionRecognition

/-!
# Which tokens a failed reading blames

A rule that fails blames the token that is next, or one that it has taken before: the
operator of a node that is too high, the equals sign behind what is no target. So whatever
holds of all tokens before a reader and of the end behind them holds of the token that a
reading from there blames.
-/

namespace ScopedExpr

structure TokenReader.All (P : Token → Prop) (r : TokenReader) : Prop where
  rest : ∀ t ∈ r.rest, P t
  stop : P r.stop

namespace TokenReader.All

variable {P : Token → Prop} {r r' : TokenReader}

theorem of_precedes (h : r.All P) (behind : r.Precedes r') : r'.All P :=
  ⟨fun t mem => h.rest t (behind.suffix.subset mem), behind.stop ▸ h.stop⟩

theorem current (h : r.All P) : P r.current := by
  rw [TokenReader.current]
  cases rest : r.rest with
  | nil => exact h.stop
  | cons t ts => exact h.rest t (by simp [rest])

end TokenReader.All

theorem TokenReader.stop_mem_of_end {tokens : List Token}
    (ending : ∃ t ∈ tokens, t.kind = .endOfText) :
    (ofTokens tokens).stop ∈ tokens ∧ isCode (ofTokens tokens).stop = true := by
  have isEnd : isCode (ofTokens tokens).stop = true := by
    rw [isCode, kind_stop_ofTokens]
  refine ⟨?_, isEnd⟩
  cases found : (tokens.filter isCode).find? (·.kind == .endOfText) with
  | some t =>
    have stop : (ofTokens tokens).stop = t := by
      rw [ofTokens, found]
      rfl
    rw [stop]
    exact (List.mem_filter.1 (List.mem_of_find?_eq_some found)).1
  | none =>
    obtain ⟨t, mem, is⟩ := ending
    have code : isCode t = true := by rw [isCode, is]
    have no := List.find?_eq_none.1 found t (List.mem_filter.2 ⟨mem, code⟩)
    exact absurd (beq_iff_eq.2 is) no

namespace Reading

variable {P : Token → Prop} {α β : Type} {x : Reading α} {f : α → Reading β}

/-- A step that fails blames a token with the property, if all tokens before it have it. -/
def Blames (P : Token → Prop) (step : Reading α) : Prop :=
  ∀ r e r', r.All P → step.run r = .error e r' → P e.token

namespace Blames

theorem pure (a : α) : Blames P (pure a : Reading α) := by
  rintro r e r' - ⟨⟩

theorem throw {fault : ParseFault} {t : Token} (h : P t) :
    Blames P (throw ⟨fault, t⟩ : Reading α) := by
  rintro r e r' - ⟨⟩
  exact h

theorem get : Blames P (get : Reading TokenReader) := by
  rintro r e r' - ⟨⟩

theorem failHere (fault : ParseFault) : Blames P (failHere fault : Reading α) := by
  rintro r e r' all ⟨⟩
  exact all.current

theorem bind (first : Blames P x) (forward : Forward x) (next : ∀ a, Blames P (f a)) :
    Blames P (x >>= f) := by
  intro r e r' all run
  obtain failed | ⟨a, r₁, taken, run₁⟩ := run_bind_eq_error_iff.1 run
  · exact first r e r' all failed
  · exact next a r₁ e r' (all.of_precedes (forward.of_ok taken)) run₁

/-- What follows a token that was taken may blame that token. -/
theorem accept? {wanted : TokenKind → Bool} {f : Option Token → Reading β}
    (none : Blames P (f none)) (some : ∀ t, P t → Blames P (f (some t))) :
    Blames P (Reading.accept? wanted >>= f) := by
  intro r e r' all run
  obtain failed | ⟨o, r₁, taken, run₁⟩ := run_bind_eq_error_iff.1 run
  · exact absurd failed run_accept?_ne_error
  · have all₁ := all.of_precedes ((Forward.accept? wanted).of_ok taken)
    obtain ⟨rfl, -⟩ | ⟨t, ts, rfl, rest, -, -⟩ := of_run_accept? taken
    · exact none r₁ e r' all₁ run₁
    · exact some t (all.rest t (by simp [rest])) r₁ e r' all₁ run₁

theorem joinHeights {place : Token} (h : P place) (a b : Nat) :
    Blames P (joinHeights a b place) := by
  unfold Reading.joinHeights
  simp only
  split
  · exact .throw h
  · exact .pure _

variable {level : Level} {sub : Reading Subtree} {entries : Nat}

theorem chainFrom (h : Blames P sub) (forward : Forward sub) (bound : Nat) (left : Subtree) :
    Blames P (chainFrom level sub bound left) := by
  induction bound generalizing left with
  | zero => exact .pure _
  | succ bound ih =>
    refine .accept? (.pure _) fun operator isOne => ?_
    refine .bind h forward fun right => ?_
    exact .bind (.joinHeights isOne _ _) (.joinHeights _ _ _) fun height => ih _

theorem climb (h : Blames P sub) (forward : Forward sub) (ls : List Level) :
    Blames P (climb ls sub) := by
  induction ls with
  | nil => exact h
  | cons level tighter ih =>
    have further := forward.climb tighter
    exact .bind ih further fun first => .bind .get .get fun r => ih.chainFrom further _ _

theorem propertiesFrom (bound : Nat) (object : Subtree) :
    Blames P (propertiesFrom bound object) := by
  induction bound generalizing object with
  | zero => exact .pure _
  | succ bound ih =>
    refine .accept? (.pure _) fun dot _ => ?_
    refine .accept? (.failHere _) fun name isOne => ?_
    exact .bind (.joinHeights isOne _ _) (.joinHeights _ _ _) fun height => ih _

theorem group (h : Blames P sub) (forward : Forward sub) {opening : Token} (isOne : P opening) :
    Blames P (group sub opening) := by
  refine .bind h forward fun inner => ?_
  refine .accept? (.failHere _) fun closing _ => ?_
  exact .bind (.joinHeights isOne _ _) (.joinHeights _ _ _) fun height => .pure _

theorem primary (h : Blames P sub) (forward : Forward sub) : Blames P (primary sub) := by
  intro r e r' all run
  cases hr : r.rest with
  | nil =>
    rw [run_primary_nil hr] at run
    cases run
    exact all.current
  | cons t ts =>
    have isOne : P t := all.rest t (by simp [hr])
    obtain ⟨v, is⟩ | is | is | ⟨literal, identifier, paren⟩ := primary_cases t.kind
    · rw [run_primary_literal hr is] at run
      cases run
    · rw [run_primary_identifier hr is] at run
      cases run
    · rw [run_primary_group hr is] at run
      exact h.group forward isOne _ e r' (all.of_precedes (.next hr)) run
    · rw [run_primary_other hr literal identifier paren] at run
      cases run
      exact isOne

theorem operand_succ (assignment : Blames P (assignment entries))
    (operand : Blames P (operand entries)) : Blames P (Reading.operand (entries + 1)) := by
  obtain ⟨assignmentForward, operandForward⟩ := forward_rules entries
  refine .accept? ?_ fun operator isOne => ?_
  · refine .bind (assignment.primary assignmentForward) assignmentForward.primary fun object => ?_
    exact .bind .get .get fun r => .propertiesFrom _ _
  · refine .bind operand operandForward fun right => ?_
    exact .bind (.joinHeights isOne _ _) (.joinHeights _ _ _) fun height => .pure _

theorem assignment_succ (assignment : Blames P (assignment entries))
    (operand : Blames P (operand entries)) : Blames P (Reading.assignment (entries + 1)) := by
  obtain ⟨assignmentForward, operandForward⟩ := forward_rules entries
  refine .bind (operand.climb operandForward levels) (operandForward.climb levels) fun target => ?_
  refine .accept? (.pure _) fun equals isOne => ?_
  refine .bind assignment assignmentForward fun value => ?_
  cases assignTo? target.expr value.expr with
  | none => exact .throw isOne
  | some expr => exact .bind (.joinHeights isOne _ _) (.joinHeights _ _ _) fun height => .pure _

end Blames

theorem blames_rules (P : Token → Prop) (entries : Nat) :
    Blames P (assignment entries) ∧ Blames P (operand entries) := by
  induction entries with
  | zero => exact ⟨.failHere _, .failHere _⟩
  | succ entries ih => exact ⟨.assignment_succ ih.1 ih.2, .operand_succ ih.1 ih.2⟩

theorem blames_wholeExpression (P : Token → Prop) : Blames P wholeExpression := by
  obtain ⟨assignment, -⟩ := blames_rules P maxNesting
  have expression : Blames P expression :=
    .bind assignment (forward_rules maxNesting).1 fun t => .pure t.expr
  refine .bind expression forward_expression fun e => .bind .get .get fun r => ?_
  split
  · exact .pure _
  · exact .failHere _

end Reading

/-- Where an end is among the tokens of a list, a reading that fails blames one of them which
is no comment. -/
theorem blamed_mem_of_ofTokens {tokens : List Token} {err : ParseError}
    (ending : ∃ t ∈ tokens, t.kind = .endOfText) (failed : Expr.ofTokens tokens = .error err) :
    err.token ∈ tokens ∧ TokenReader.isCode err.token = true := by
  obtain ⟨r, run⟩ := ofTokens_eq_error.1 failed
  refine Reading.blames_wholeExpression (fun t => t ∈ tokens ∧ TokenReader.isCode t = true)
    _ _ _ ⟨fun t mem => ?_, TokenReader.stop_mem_of_end ending⟩ run
  exact ⟨(TokenReader.rest_ofTokens_sublist tokens).subset mem,
    TokenReader.isCode_of_mem_ofTokens mem⟩

end ScopedExpr
