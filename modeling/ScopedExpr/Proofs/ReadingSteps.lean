import ScopedExpr.PrecedenceGrammar

/-!
# Steps of reading

How a step that is made of steps succeeds, and what every step keeps, also one that
fails: tokens are only taken off the front, the token that ends them stays, and the
numbers of references only grow, by at most one for each identifier that is taken.
-/

namespace ScopedExpr

def identifierCount (ts : List Token) : Nat := ts.countP (·.kind == .identifier)

/-- A reader that comes behind another one on the same tokens. -/
structure TokenReader.Precedes (r r' : TokenReader) : Prop where
  suffix : r'.rest <:+ r.rest
  stop : r'.stop = r.stop
  nextId : r.nextId ≤ r'.nextId
  numbered : r'.nextId + identifierCount r'.rest ≤ r.nextId + identifierCount r.rest

namespace TokenReader.Precedes

variable {r s : TokenReader} {t : Token} {ts : List Token}

theorem refl (r : TokenReader) : r.Precedes r :=
  ⟨List.suffix_rfl, rfl, Nat.le_refl _, Nat.le_refl _⟩

theorem trans {r' : TokenReader} (h : r.Precedes s) (h' : s.Precedes r') : r.Precedes r' where
  suffix := h'.suffix.trans h.suffix
  stop := h'.stop.trans h.stop
  nextId := Nat.le_trans h.nextId h'.nextId
  numbered := Nat.le_trans h'.numbered h.numbered

theorem next (h : r.rest = t :: ts) : r.Precedes { r with rest := ts } where
  suffix := h ▸ List.suffix_cons t ts
  stop := rfl
  nextId := Nat.le_refl _
  numbered := by
    rw [h]
    exact Nat.add_le_add_left (List.sublist_cons_self t ts).countP_le _

/-- Taking an identifier may give out a number. -/
theorem identifier (h : r.rest = t :: ts) (is : t.kind = .identifier) :
    r.Precedes { r with rest := ts, nextId := r.nextId + 1 } where
  suffix := h ▸ List.suffix_cons t ts
  stop := rfl
  nextId := Nat.le_succ _
  numbered := by
    have count : identifierCount (t :: ts) = identifierCount ts + 1 := by
      simp [identifierCount, is]
    rw [h, count]
    simp only
    omega

end TokenReader.Precedes

namespace Reading

variable {α β : Type}

theorem run_bind_eq_ok_iff {x : Reading α} {f : α → Reading β} {r r' : TokenReader} {b : β} :
    (x >>= f).run r = .ok b r' ↔
      ∃ a r₁, x.run r = .ok a r₁ ∧ (f a).run r₁ = .ok b r' := by
  rw [EStateM.run_bind]
  cases x.run r with
  | ok a r₁ => exact ⟨fun h => ⟨a, r₁, rfl, h⟩, by rintro ⟨_, _, ⟨⟩, h⟩; exact h⟩
  | error e r₁ => exact ⟨nofun, by rintro ⟨_, _, ⟨⟩, _⟩⟩

theorem run_bind_of_ok {x : Reading α} {f : α → Reading β} {r r₁ : TokenReader} {a : α}
    (h : x.run r = .ok a r₁) : (x >>= f).run r = (f a).run r₁ := by
  rw [EStateM.run_bind, h]

theorem run_bind_eq_error_iff {x : Reading α} {f : α → Reading β} {r r' : TokenReader}
    {e : ParseError} : (x >>= f).run r = .error e r' ↔
      x.run r = .error e r' ∨ ∃ a r₁, x.run r = .ok a r₁ ∧ (f a).run r₁ = .error e r' := by
  rw [EStateM.run_bind]
  cases x.run r with
  | ok a r₁ =>
    exact ⟨fun h => .inr ⟨a, r₁, rfl, h⟩, by rintro (⟨⟨⟩⟩ | ⟨_, _, ⟨⟩, h⟩); exact h⟩
  | error e' r₁ =>
    constructor
    · rintro ⟨⟩
      exact .inl rfl
    · rintro (⟨⟨⟩⟩ | ⟨_, _, ⟨⟩, _⟩)
      rfl

/-- Looking at the next token never fails. -/
theorem run_accept?_ne_error {wanted : TokenKind → Bool} {r r' : TokenReader} {e : ParseError} :
    (accept? wanted).run r ≠ .error e r' := by
  intro h
  cases hr : r.rest with
  | nil => simp [run_accept?_nil hr] at h
  | cons t ts =>
    cases is : wanted t.kind with
    | false => simp [run_accept?_of_neg hr is] at h
    | true => simp [run_accept?_of_pos hr is] at h

theorem of_run_accept? {wanted : TokenKind → Bool} {r r' : TokenReader} {o : Option Token}
    (h : (accept? wanted).run r = .ok o r') :
    (o = none ∧ r' = r) ∨ ∃ t ts, o = some t ∧ r.rest = t :: ts ∧ wanted t.kind = true ∧
      r' = { r with rest := ts } := by
  cases hr : r.rest with
  | nil =>
    rw [run_accept?_nil hr] at h
    cases h
    exact .inl ⟨rfl, rfl⟩
  | cons t ts =>
    cases is : wanted t.kind with
    | false =>
      rw [run_accept?_of_neg hr is] at h
      cases h
      exact .inl ⟨rfl, rfl⟩
    | true =>
      rw [run_accept?_of_pos hr is] at h
      cases h
      exact .inr ⟨t, ts, rfl, rfl, is, rfl⟩

theorem run_joinHeights_eq_ok_iff {a b h : Nat} {place : Token} {r r' : TokenReader} :
    (joinHeights a b place).run r = .ok h r' ↔
      max a b + 1 ≤ maxNesting ∧ h = max a b + 1 ∧ r' = r := by
  rw [run_joinHeights]
  split
  · simp; omega
  · simp only [EStateM.Result.ok.injEq]
    constructor
    · rintro ⟨rfl, rfl⟩
      exact ⟨by omega, rfl, rfl⟩
    · rintro ⟨-, rfl, rfl⟩
      exact ⟨rfl, rfl⟩

/-- A step that ends behind its start, also when it fails. -/
def Forward (step : Reading α) : Prop := ∀ r : TokenReader, r.Precedes (r.attempt step).2

theorem Forward.of_ok {step : Reading α} (h : Forward step) {r r' : TokenReader} {a : α}
    (run : step.run r = .ok a r') : r.Precedes r' := by
  simpa [TokenReader.attempt, run] using h r

theorem Forward.of_error {step : Reading α} (h : Forward step) {r r' : TokenReader}
    {e : ParseError} (run : step.run r = .error e r') : r.Precedes r' := by
  simpa [TokenReader.attempt, run] using h r

theorem Forward.mk {step : Reading α}
    (ok : ∀ r a r', step.run r = .ok a r' → r.Precedes r')
    (error : ∀ r e r', step.run r = .error e r' → r.Precedes r') : Forward step := by
  intro r
  unfold TokenReader.attempt
  split
  · next a r' h => exact ok r a r' h
  · next e r' h => exact error r e r' h

theorem Forward.pure (a : α) : Forward (pure a : Reading α) := fun r => .refl r

theorem Forward.throw (e : ParseError) : Forward (throw e : Reading α) := fun r => .refl r

theorem Forward.get : Forward (get : Reading TokenReader) := fun r => .refl r

theorem Forward.failHere (fault : ParseFault) : Forward (failHere fault : Reading α) :=
  fun r => .refl r

theorem Forward.bind {x : Reading α} {f : α → Reading β} (hx : Forward x)
    (hf : ∀ a, Forward (f a)) : Forward (x >>= f) := by
  apply Forward.mk
  · intro r b r' h
    obtain ⟨a, r₁, h₁, h₂⟩ := run_bind_eq_ok_iff.1 h
    exact (hx.of_ok h₁).trans ((hf a).of_ok h₂)
  · intro r e r' h
    obtain h₁ | ⟨a, r₁, h₁, h₂⟩ := run_bind_eq_error_iff.1 h
    · exact hx.of_error h₁
    · exact (hx.of_ok h₁).trans ((hf a).of_error h₂)

theorem Forward.joinHeights (a b : Nat) (place : Token) : Forward (joinHeights a b place) := by
  unfold Reading.joinHeights
  simp only
  split
  · exact .throw _
  · exact .pure _

theorem Forward.accept? (wanted : TokenKind → Bool) : Forward (accept? wanted) := by
  apply Forward.mk
  · intro r o r' h
    obtain ⟨-, rfl⟩ | ⟨t, ts, -, rest, -, rfl⟩ := of_run_accept? h
    · exact .refl _
    · exact .next rest
  · intro r e r' h
    exact absurd h run_accept?_ne_error

theorem Forward.acceptMark? (mark : Punctuator) : Forward (acceptMark? mark) := .accept? _

variable {level : Level} {sub : Reading Subtree}

theorem Forward.chainFrom (h : Forward sub) (bound : Nat) (left : Subtree) :
    Forward (chainFrom level sub bound left) := by
  induction bound generalizing left with
  | zero => exact .pure _
  | succ bound ih =>
    refine .bind (.accept? _) fun o => ?_
    cases o with
    | none => exact .pure _
    | some operator => exact .bind h fun right => .bind (.joinHeights _ _ _) fun height => ih _

theorem Forward.chain (h : Forward sub) : Forward (chain level sub) :=
  .bind h fun _ => .bind .get fun _ => h.chainFrom _ _

theorem Forward.climb (h : Forward sub) (ls : List Level) : Forward (climb ls sub) := by
  induction ls with
  | nil => exact h
  | cons level tighter ih => exact ih.chain

theorem Forward.propertiesFrom (bound : Nat) (object : Subtree) :
    Forward (propertiesFrom bound object) := by
  induction bound generalizing object with
  | zero => exact .pure _
  | succ bound ih =>
    refine .bind (.acceptMark? _) fun o => ?_
    cases o with
    | none => exact .pure _
    | some dot =>
      refine .bind (.accept? _) fun name => ?_
      cases name with
      | none => exact .failHere _
      | some name => exact .bind (.joinHeights _ _ _) fun height => ih _

def group (nested : Reading Subtree) (opening : Token) : Reading Subtree := do
  let inner ← nested
  match ← acceptMark? .rightParen with
  | none => failHere .closingParenExpected
  | some _ => return ⟨.grouping inner.expr, ← joinHeights inner.height 0 opening⟩

section Primary

variable {nested : Reading Subtree} {r : TokenReader} {t : Token} {ts : List Token}

theorem run_primary_nil (hr : r.rest = []) :
    (primary nested).run r = .error ⟨.expressionExpected, r.current⟩ r := by
  simp [primary, hr]

theorem run_primary_literal {v : Value} (hr : r.rest = t :: ts)
    (is : literal? t.kind = some v) :
    (primary nested).run r = .ok ⟨.literal v, 1⟩ { r with rest := ts } := by
  simp only [primary, EStateM.run_bind, EStateM.run_get, hr, is]
  rfl

theorem run_primary_identifier (hr : r.rest = t :: ts) (is : t.kind = .identifier) :
    (primary nested).run r =
      .ok ⟨.reference r.nextId t, 1⟩ { r with rest := ts, nextId := r.nextId + 1 } := by
  simp only [primary, EStateM.run_bind, EStateM.run_get, hr, is, literal?]
  rfl

theorem run_primary_group (hr : r.rest = t :: ts) (is : t.kind = .punctuator .leftParen) :
    (primary nested).run r = (group nested t).run { r with rest := ts } := by
  simp only [primary, EStateM.run_bind, EStateM.run_get, hr, is, literal?]
  rfl

theorem run_primary_other (hr : r.rest = t :: ts) (literal : literal? t.kind = none)
    (identifier : t.kind ≠ .identifier) (paren : t.kind ≠ .punctuator .leftParen) :
    (primary nested).run r = .error ⟨.expressionExpected, t⟩ r := by
  simp [primary, hr, literal, TokenReader.current]

theorem primary_cases (k : TokenKind) :
    (∃ v, literal? k = some v) ∨ k = .identifier ∨ k = .punctuator .leftParen ∨
      (literal? k = none ∧ k ≠ .identifier ∧ k ≠ .punctuator .leftParen) := by
  cases literal? k with
  | some v => exact .inl ⟨v, rfl⟩
  | none =>
    by_cases identifier : k = .identifier
    · exact .inr (.inl identifier)
    · by_cases paren : k = .punctuator .leftParen
      · exact .inr (.inr (.inl paren))
      · exact .inr (.inr (.inr ⟨rfl, identifier, paren⟩))

end Primary

theorem Forward.group (h : Forward sub) (opening : Token) : Forward (group sub opening) := by
  refine .bind h fun inner => .bind (.acceptMark? _) fun o => ?_
  cases o with
  | none => exact .failHere _
  | some closing => exact .bind (.joinHeights _ _ _) fun height => .pure _

theorem Forward.primary (h : Forward sub) : Forward (primary sub) := by
  intro r
  cases hr : r.rest with
  | nil =>
    rw [TokenReader.attempt, run_primary_nil hr]
    exact .refl r
  | cons t ts =>
    obtain ⟨v, is⟩ | is | is | ⟨literal, identifier, paren⟩ := primary_cases t.kind
    · rw [TokenReader.attempt, run_primary_literal hr is]
      exact .next hr
    · rw [TokenReader.attempt, run_primary_identifier hr is]
      exact .identifier hr is
    · rw [TokenReader.attempt, run_primary_group hr is]
      exact (TokenReader.Precedes.next hr).trans (h.group t _)
    · rw [TokenReader.attempt, run_primary_other hr literal identifier paren]
      exact .refl r

theorem Forward.operand_succ {entries : Nat} (assignment : Forward (assignment entries))
    (operand : Forward (operand entries)) : Forward (Reading.operand (entries + 1)) := by
  refine .bind (.accept? _) fun o => ?_
  cases o with
  | none => exact .bind assignment.primary fun _ => .bind .get fun _ => .propertiesFrom _ _
  | some operator =>
    exact .bind operand fun right => .bind (.joinHeights _ _ _) fun height => .pure _

theorem Forward.assignment_succ {entries : Nat} (assignment : Forward (assignment entries))
    (operand : Forward (operand entries)) : Forward (Reading.assignment (entries + 1)) := by
  refine .bind (operand.climb levels) fun target => .bind (.acceptMark? _) fun o => ?_
  cases o with
  | none => exact .pure _
  | some equals =>
    refine .bind assignment fun value => ?_
    cases assignTo? target.expr value.expr with
    | none => exact .throw _
    | some expr => exact .bind (.joinHeights _ _ _) fun height => .pure _

theorem forward_rules (entries : Nat) :
    Forward (assignment entries) ∧ Forward (operand entries) := by
  induction entries with
  | zero => exact ⟨.failHere _, .failHere _⟩
  | succ entries ih => exact ⟨.assignment_succ ih.1 ih.2, .operand_succ ih.1 ih.2⟩

theorem forward_expression : Forward expression := by
  have rule : Forward (assignment maxNesting >>= fun t => pure t.expr) :=
    .bind (forward_rules maxNesting).1 fun _ => .pure _
  exact rule

theorem forward_wholeExpression : Forward wholeExpression := by
  refine .bind forward_expression fun e => .bind .get fun r => ?_
  split
  · exact .pure _
  · exact .failHere _

end Reading

end ScopedExpr
