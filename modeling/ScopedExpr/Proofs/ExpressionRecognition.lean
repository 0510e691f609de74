import ScopedExpr.Proofs.GrammarCompleteness

/-!
# Which token lists are expressions

Comments are dropped and the first end of text cuts the list off. What is left is read
as a tree exactly when it spells the tree, the tree is well formed, its references are
numbered in order from zero, and both bounds of nesting are kept.
-/

namespace ScopedExpr

namespace TokenReader

variable {t : Token} {tokens pre post xs ys : List Token}

theorem rest_ofTokens_sublist (tokens : List Token) : (ofTokens tokens).rest.Sublist tokens :=
  (List.takeWhile_sublist _).trans List.filter_sublist

theorem isCode_of_mem_ofTokens (h : t ∈ (ofTokens tokens).rest) : isCode t = true :=
  (List.mem_filter.1 ((List.takeWhile_sublist _).subset h)).2

theorem kind_ne_of_mem_ofTokens (h : t ∈ (ofTokens tokens).rest) : t.kind ≠ .endOfText := by
  simpa using List.all_eq_true.1 List.all_takeWhile t h

theorem kind_stop_ofTokens (tokens : List Token) : (ofTokens tokens).stop.kind = .endOfText := by
  change (((tokens.filter isCode).find? (·.kind == .endOfText)).getD missingEnd).kind = .endOfText
  cases found : (tokens.filter isCode).find? (·.kind == .endOfText) with
  | none => rfl
  | some t => simpa using List.find?_some found

theorem rest_ofTokens_end (isEnd : t.kind = .endOfText) : (ofTokens [t]).rest = [] := by
  simp [ofTokens, isCode, isEnd]

theorem rest_ofTokens_cons (code : isCode t = true) (notEnd : t.kind ≠ .endOfText)
    (tokens : List Token) : (ofTokens (t :: tokens)).rest = t :: (ofTokens tokens).rest := by
  simp [ofTokens, code, notEnd]

/-- The expression goes on behind tokens without an end. -/
theorem rest_ofTokens_append (noEnd : ∀ t ∈ pre, t.kind ≠ .endOfText) (post : List Token) :
    (ofTokens (pre ++ post)).rest = pre.filter isCode ++ (ofTokens post).rest := by
  have all : ∀ t ∈ pre.filter isCode, (t.kind != .endOfText) = true := fun t mem =>
    bne_iff_ne.2 (noEnd t (List.mem_filter.1 mem).1)
  simp only [ofTokens, List.filter_append, List.takeWhile_append_of_pos all]

/-- Where the tokens of an expression are split, the whole list can be. -/
theorem exists_split_of_rest (h : (ofTokens tokens).rest = xs ++ ys) :
    ∃ pre post, tokens = pre ++ post ∧ (∀ t ∈ pre, t.kind ≠ .endOfText) ∧
      pre.filter isCode = xs ∧ (ofTokens post).rest = ys := by
  have whole := List.takeWhile_append_dropWhile (p := (·.kind != .endOfText))
    (l := tokens.filter isCode)
  have taken : (tokens.filter isCode).takeWhile (·.kind != .endOfText) = xs ++ ys := h
  rw [taken, List.append_assoc] at whole
  obtain ⟨pre, post, rfl, code, -⟩ := List.filter_eq_append_iff.1 whole.symm
  have noEnd : ∀ t ∈ pre, t.kind ≠ .endOfText := by
    intro t mem isEnd
    have isCode : isCode t = true := by rw [TokenReader.isCode, isEnd]
    have among : t ∈ (ofTokens (pre ++ post)).rest := by
      rw [h, ← code]
      exact List.mem_append_left _ (List.mem_filter.2 ⟨mem, isCode⟩)
    exact kind_ne_of_mem_ofTokens among isEnd
  refine ⟨pre, post, rfl, noEnd, code, ?_⟩
  rw [rest_ofTokens_append noEnd, code] at h
  exact List.append_cancel_left h

end TokenReader

namespace Reading

/-- The whole is read when an expression is read and nothing is left. -/
theorem run_wholeExpression_eq_ok_iff {r r' : TokenReader} {e : Expr} :
    wholeExpression.run r = .ok e r' ↔ expression.run r = .ok e r' ∧ r'.rest = [] := by
  constructor
  · intro run
    obtain ⟨e', r₁, read, run₁⟩ := run_bind_eq_ok_iff.1 run
    have done : (if r₁.rest.isEmpty then (pure e' : Reading Expr)
        else failHere .endExpected).run r₁ = .ok e r' := run₁
    split at done
    · next empty =>
      cases done
      exact ⟨read, List.isEmpty_iff.1 empty⟩
    · cases done
  · rintro ⟨read, empty⟩
    refine (run_bind_of_ok read).trans ?_
    have done : (if r'.rest.isEmpty then (pure e : Reading Expr)
        else failHere .endExpected).run r' = .ok e r' := by
      rw [empty]
      rfl
    exact done

end Reading

open Reading

theorem ofTokens_eq_ok {tokens : List Token} {e : Expr} : Expr.ofTokens tokens = .ok e ↔
    ∃ r, wholeExpression.run (.ofTokens tokens) = .ok e r := by
  unfold Expr.ofTokens TokenReader.attempt
  cases wholeExpression.run (.ofTokens tokens) <;> simp

theorem ofTokens_eq_error {tokens : List Token} {err : ParseError} :
    Expr.ofTokens tokens = .error err ↔
      ∃ r, wholeExpression.run (.ofTokens tokens) = .error err r := by
  unfold Expr.ofTokens TokenReader.attempt
  cases wholeExpression.run (.ofTokens tokens) <;> simp

theorem readable_of_ofTokens {tokens : List Token} {e : Expr}
    (h : Expr.ofTokens tokens = .ok e) :
    e.WellFormed ∧ Readable e (maxNesting - 1) (TokenReader.ofTokens tokens).rest 0 := by
  obtain ⟨r, run⟩ := ofTokens_eq_ok.1 h
  obtain ⟨read, empty⟩ := run_wholeExpression_eq_ok_iff.1 run
  obtain ⟨reads, entries⟩ := reads_expression read
  obtain ⟨ts, spelled, rest⟩ := reads.spelled
  rw [empty, List.append_nil] at rest
  exact ⟨reads.wellFormed, rest ▸ spelled, by omega, reads.ids, reads.bounded⟩

theorem ofTokens_of_readable {tokens : List Token} {e : Expr} (wf : e.WellFormed)
    (readable : Readable e (maxNesting - 1) (TokenReader.ofTokens tokens).rest 0) :
    Expr.ofTokens tokens = .ok e := by
  have read := run_expression_of_readable wf readable [] (TokenReader.ofTokens tokens).stop
    nofun nofun
  rw [List.append_nil] at read
  exact ofTokens_eq_ok.2 ⟨_, run_wholeExpression_eq_ok_iff.2 ⟨read, rfl⟩⟩

/-- A list of tokens is read as a tree exactly when it spells the tree by the grammar and
within the bounds of nesting. -/
theorem ofTokens_eq_ok_iff_spells (tokens : List Token) (e : Expr) :
    Expr.ofTokens tokens = .ok e ↔
      e.Spells ((tokens.filter TokenReader.isCode).takeWhile (·.kind != .endOfText)) ∧
      e.WellFormed ∧ e.referenceIds = List.range e.references.length ∧
      e.countedHeight ≤ maxNesting ∧ e.entries < maxNesting := by
  rw [List.range_eq_range']
  constructor
  · intro read
    obtain ⟨wf, readable⟩ := readable_of_ofTokens read
    have within := readable.within
    have positive := one_le_maxNesting
    exact ⟨readable.spelled, wf, readable.ids, readable.bounded, by omega⟩
  · rintro ⟨spelled, wf, ids, bounded, entries⟩
    exact ofTokens_of_readable wf ⟨spelled, by omega, ids, bounded⟩

end ScopedExpr
