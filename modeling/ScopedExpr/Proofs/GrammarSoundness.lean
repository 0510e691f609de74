import ScopedExpr.Proofs.ExpressionSpelling
import ScopedExpr.Proofs.ReadingInversion

/-!
# What is read is in the grammar

A successful step takes exactly the tokens that spell its tree, gives the references of
the tree the next numbers in order, and keeps both bounds of nesting. One lemma for each
rule; the loops carry the tree that is read so far.
-/

namespace ScopedExpr

namespace Expr

/-- A tree at a level or at a tighter one that needs at most so many rule entries. -/
def Fits (level entries : Nat) (e : Expr) : Prop := level ≤ e.level ∧ e.entries ≤ entries

theorem level_le (e : Expr) : e.level ≤ 8 := by
  have bound : ∀ k : TokenKind, k.precedence?.getD 0 ≤ 8 := by
    intro k
    unfold TokenKind.precedence?
    split <;> simp
  cases e <;> simp [level, bound]

end Expr

namespace Reading

structure Reads (r : TokenReader) (t : Subtree) (r' : TokenReader) : Prop where
  spelled : ∃ ts, t.expr.Spells ts ∧ r.rest = ts ++ r'.rest
  ids : t.expr.referenceIds = List.range' r.nextId t.expr.references.length
  nextId : r'.nextId = r.nextId + t.expr.references.length
  wellFormed : t.expr.WellFormed
  height : t.height = t.expr.countedHeight
  bounded : t.expr.countedHeight ≤ maxNesting

/-- Whenever the step succeeds it reads a tree of the given sort. -/
def Yields (step : Reading Subtree) (sort : Expr → Prop) : Prop :=
  ∀ r t r', step.run r = .ok t r' → Reads r t r' ∧ sort t.expr

section Nodes

variable {r r₁ r₂ r' : TokenReader} {t u : Subtree} {name dot equals operator : Token}
  {ts : List Token}

private theorem append_range' {a b : List Nat} {k m n : Nat} (ha : a = List.range' k m)
    (hb : b = List.range' (k + m) n) : a ++ b = List.range' k (m + n) := by
  rw [ha, hb, List.range'_append_1]

theorem Reads.node {i : Nat} (h : i < levels.length) (left : Reads r t r₁)
    (taken : r₁.rest = operator :: ts) (is : operator.kind.precedence? = some (i + 1))
    (right : Reads { r₁ with rest := ts } u r') (leftLevel : i + 1 ≤ t.expr.level)
    (rightLevel : i + 1 < u.expr.level) (bound : max t.height u.height + 1 ≤ maxNesting) :
    Reads r ⟨levels[i].node t.expr operator u.expr, max t.height u.height + 1⟩ r' := by
  obtain ⟨ls, leftSpelled, leftRest⟩ := left.spelled
  obtain ⟨rs, rightSpelled, rightRest⟩ := right.spelled
  have counted : max t.height u.height + 1 =
      (levels[i].node t.expr operator u.expr).countedHeight := by
    rw [countedHeight_node, left.height, right.height]
  have refs := references_node h t.expr operator u.expr
  have next : r₁.nextId = r.nextId + t.expr.references.length := left.nextId
  refine ⟨⟨ls ++ operator :: rs, spells_node h leftSpelled rightSpelled, ?_⟩, ?_, ?_, ?_,
    counted, counted ▸ bound⟩
  · simp only at rightRest
    rw [leftRest, taken, rightRest]
    simp
  · have rightIds := right.ids
    simp only [next] at rightIds
    simp only [Expr.referenceIds, refs, List.map_append, List.length_append]
    exact append_range' left.ids rightIds
  · have rightNext := right.nextId
    simp only [next] at rightNext
    rw [rightNext, refs, List.length_append]
    omega
  · exact (wellFormed_node_iff h is).2 ⟨leftLevel, rightLevel, left.wellFormed, right.wellFormed⟩

theorem Reads.unary (taken : r.rest = operator :: ts)
    (is : isUnaryOperator operator.kind = true) (operand : Reads { r with rest := ts } t r')
    (level : 7 ≤ t.expr.level) (bound : t.height + 1 ≤ maxNesting) :
    Reads r ⟨.unary operator t.expr, t.height + 1⟩ r' := by
  obtain ⟨us, spelled, rest⟩ := operand.spelled
  have counted : t.height + 1 = (Expr.unary operator t.expr).countedHeight := by
    rw [operand.height, Expr.countedHeight]
  refine ⟨⟨operator :: us, .unary spelled, ?_⟩, operand.ids, operand.nextId,
    ⟨isUnaryOperator_iff.1 is, level, operand.wellFormed⟩, counted, counted ▸ bound⟩
  rw [taken, List.cons_append, ← rest]

theorem Reads.get (object : Reads r t r₁) (taken : r₁.rest = dot :: name :: ts)
    (isDot : dot.kind = .punctuator .dot) (isName : name.kind = .identifier)
    (level : 8 ≤ t.expr.level) (bound : t.height + 1 ≤ maxNesting) :
    Reads r ⟨.get t.expr name, t.height + 1⟩ { r₁ with rest := ts } := by
  obtain ⟨us, spelled, rest⟩ := object.spelled
  have counted : t.height + 1 = (Expr.get t.expr name).countedHeight := by
    rw [object.height, Expr.countedHeight]
  refine ⟨⟨us ++ [dot, name], .get isDot spelled, ?_⟩, object.ids, object.nextId,
    ⟨(t.expr.level_le).antisymm level, object.wellFormed, isName⟩, counted, counted ▸ bound⟩
  rw [rest, taken]
  simp

theorem Reads.grouping {opening closing : Token} (taken : r.rest = opening :: ts)
    (isOpening : opening.kind = .punctuator .leftParen)
    (inner : Reads { r with rest := ts } t r₁) {us : List Token}
    (closed : r₁.rest = closing :: us) (isClosing : closing.kind = .punctuator .rightParen)
    (bound : t.height + 1 ≤ maxNesting) :
    Reads r ⟨.grouping t.expr, t.height + 1⟩ { r₁ with rest := us } := by
  obtain ⟨vs, spelled, rest⟩ := inner.spelled
  have counted : t.height + 1 = (Expr.grouping t.expr).countedHeight := by
    rw [inner.height, Expr.countedHeight]
  refine ⟨⟨opening :: vs ++ [closing], .grouping isOpening isClosing spelled, ?_⟩, inner.ids,
    inner.nextId, inner.wellFormed, counted, counted ▸ bound⟩
  simp only at rest
  rw [taken, rest, closed]
  simp

theorem assignTo?_eq_some_iff {target value e : Expr} : assignTo? target value = some e ↔
    (∃ id name, target = .reference id name ∧ e = .assign id name value) ∨
      ∃ object name, target = .get object name ∧ e = .set object name value := by
  constructor
  · intro h
    unfold assignTo? at h
    split at h
    · next id name => cases h; exact .inl ⟨id, name, rfl, rfl⟩
    · next object name => cases h; exact .inr ⟨object, name, rfl, rfl⟩
    · cases h
  · rintro (⟨id, name, rfl, rfl⟩ | ⟨object, name, rfl, rfl⟩) <;> rfl

theorem Reads.assignTo (target : Reads r t r₁) (taken : r₁.rest = equals :: ts)
    (isEqual : equals.kind = .punctuator .equal) (value : Reads { r₁ with rest := ts } u r')
    {e : Expr} (made : assignTo? t.expr u.expr = some e)
    (bound : max t.height u.height + 1 ≤ maxNesting) :
    Reads r ⟨e, max t.height u.height + 1⟩ r' := by
  obtain ⟨ls, leftSpelled, leftRest⟩ := target.spelled
  obtain ⟨rs, rightSpelled, rightRest⟩ := value.spelled
  have targetFormed := target.wellFormed
  have positive := u.expr.countedHeight_pos
  have shape : e.references = t.expr.references ++ u.expr.references ∧
      e.Spells (ls ++ equals :: rs) ∧ e.WellFormed ∧
      max t.expr.countedHeight u.expr.countedHeight + 1 = e.countedHeight := by
    obtain ⟨id, name, is, rfl⟩ | ⟨object, name, is, rfl⟩ := assignTo?_eq_some_iff.1 made
    · rw [is] at leftSpelled targetFormed ⊢
      cases leftSpelled
      refine ⟨rfl, .assign isEqual rightSpelled, ⟨targetFormed, value.wellFormed⟩, ?_⟩
      simp only [Expr.countedHeight]
      omega
    · rw [is] at leftSpelled targetFormed ⊢
      obtain ⟨level, objectFormed, isName⟩ := targetFormed
      refine ⟨rfl, ?_, ⟨level, objectFormed, isName, value.wellFormed⟩, rfl⟩
      cases leftSpelled with
      | get isDot inner => simpa using Expr.Spells.set isDot isEqual inner rightSpelled
  obtain ⟨refs, spelled, wellFormed, counted⟩ := shape
  rw [← target.height, ← value.height] at counted
  have next : r₁.nextId = r.nextId + t.expr.references.length := target.nextId
  refine ⟨⟨_, spelled, ?_⟩, ?_, ?_, wellFormed, counted, counted ▸ bound⟩
  · simp only at rightRest
    rw [leftRest, taken, rightRest]
    simp
  · have valueIds := value.ids
    simp only [next] at valueIds
    simp only [Expr.referenceIds, refs, List.map_append, List.length_append]
    exact append_range' target.ids valueIds
  · have valueNext := value.nextId
    simp only [next] at valueNext
    rw [valueNext, refs, List.length_append]
    omega

end Nodes

variable {entries : Nat} {sub : Reading Subtree}

theorem reads_chainFrom {i : Nat} (h : i < levels.length)
    (hsub : Yields sub (Expr.Fits (i + 2) entries)) (bound : Nat) {r₀ r r' : TokenReader}
    {left t : Subtree} (read : Reads r₀ left r) (fits : left.expr.Fits (i + 1) entries)
    (run : (chainFrom levels[i] sub bound left).run r = .ok t r') :
    Reads r₀ t r' ∧ t.expr.Fits (i + 1) entries := by
  induction bound generalizing left r with
  | zero =>
    cases run
    exact ⟨read, fits⟩
  | succ bound ih =>
    obtain ⟨-, rfl, rfl⟩ | ⟨operator, ts, right, r₁, taken, is, right_run, within, run₁⟩ :=
      cases_of_run_chainFrom run
    · exact ⟨read, fits⟩
    · obtain ⟨rightRead, rightFits⟩ := hsub _ _ _ right_run
      have precedence := (isOperator_levels_iff h).1 is
      refine ih (read.node h taken precedence rightRead fits.1 rightFits.1 within) ?_ run₁
      refine ⟨(level_node h precedence).ge, ?_⟩
      rw [entries_node]
      exact max_le fits.2 rightFits.2

theorem yields_chain {i : Nat} (h : i < levels.length)
    (hsub : Yields sub (Expr.Fits (i + 2) entries)) :
    Yields (chain levels[i] sub) (Expr.Fits (i + 1) entries) := by
  intro r t r' run
  obtain ⟨first, r₁, first_run, run₁⟩ := run_bind_eq_ok_iff.1 run
  obtain ⟨read, level, within⟩ := hsub _ _ _ first_run
  exact reads_chainFrom h hsub _ read ⟨by omega, within⟩ run₁

theorem yields_climb (hsub : Yields sub (Expr.Fits 7 entries)) {i : Nat}
    (h : i ≤ levels.length) :
    Yields (climb (levels.drop i) sub) (Expr.Fits (i + 1) entries) := by
  -- downwards from the tightest level, where the list of levels is empty
  induction h using Nat.decreasingInduction with
  | self =>
    rw [List.drop_length]
    exact hsub
  | of_succ i h ih =>
    rw [List.drop_eq_getElem_cons h]
    exact yields_chain h ih

theorem reads_propertiesFrom (bound : Nat) {r₀ r r' : TokenReader} {object t : Subtree}
    (read : Reads r₀ object r) (fits : object.expr.Fits 8 entries)
    (run : (propertiesFrom bound object).run r = .ok t r') :
    Reads r₀ t r' ∧ t.expr.Fits 8 entries := by
  induction bound generalizing object r with
  | zero =>
    cases run
    exact ⟨read, fits⟩
  | succ bound ih =>
    obtain ⟨-, rfl, rfl⟩ | ⟨dot, name, ts, taken, isDot, isName, within, run₁⟩ :=
      cases_of_run_propertiesFrom run
    · exact ⟨read, fits⟩
    · exact ih (read.get taken isDot isName fits.1 within) ⟨le_rfl, fits.2⟩ run₁

theorem one_le_maxNesting : 1 ≤ maxNesting := by decide

theorem yields_primary (nested : Yields sub (fun e => e.entries + 1 ≤ entries)) :
    Yields (primary sub) (Expr.Fits 8 (entries + 1)) := by
  intro r t r' run
  cases hr : r.rest with
  | nil => simp [run_primary_nil hr] at run
  | cons token ts =>
    obtain ⟨v, is⟩ | is | is | ⟨literal, identifier, paren⟩ := primary_cases token.kind
    · rw [run_primary_literal hr is] at run
      cases run
      refine ⟨⟨⟨[token], .literal (literal?_eq_some_iff.1 is), hr⟩, rfl, rfl, trivial, rfl,
        one_le_maxNesting⟩, le_rfl, ?_⟩
      simp [Expr.entries]
    · rw [run_primary_identifier hr is] at run
      cases run
      refine ⟨⟨⟨[token], .reference, hr⟩, rfl, rfl, is, rfl, one_le_maxNesting⟩, le_rfl, ?_⟩
      simp [Expr.entries]
    · rw [run_primary_group hr is] at run
      obtain ⟨inner, r₁, inner_run, run₁⟩ := run_bind_eq_ok_iff.1 run
      obtain ⟨o, r₂, accepted, run₂⟩ := run_bind_eq_ok_iff.1 run₁
      obtain ⟨rfl, rfl⟩ | ⟨closing, us, rfl, closed, isClosing, rfl⟩ := of_run_accept? accepted
      · cases run₂
      · obtain ⟨height, r₃, joined, run₃⟩ := run_bind_eq_ok_iff.1 run₂
        obtain ⟨within, rfl, rfl⟩ := run_joinHeights_eq_ok_iff.1 joined
        cases run₃
        obtain ⟨read, fits⟩ := nested _ _ _ inner_run
        have bound : inner.height + 1 ≤ maxNesting := by simpa using within
        have grouped := read.grouping hr is closed (beq_iff_eq.1 isClosing) bound
        refine ⟨by simpa using grouped, le_rfl, ?_⟩
        simp only [Expr.entries]
        omega
    · rw [run_primary_other hr literal identifier paren] at run
      cases run

theorem yields_operand_succ (assignment : Yields (assignment entries) (·.entries + 1 ≤ entries))
    (operand : Yields (operand entries) (Expr.Fits 7 entries)) :
    Yields (Reading.operand (entries + 1)) (Expr.Fits 7 (entries + 1)) := by
  intro r t r' run
  obtain ⟨object, r₁, -, object_run, run₁⟩ | ⟨operator, ts, right, taken, is, right_run, within,
    rfl⟩ := cases_of_run_operand run
  · obtain ⟨read, fits⟩ := yields_primary assignment _ _ _ object_run
    obtain ⟨read, level, within⟩ := reads_propertiesFrom _ read fits run₁
    exact ⟨read, by omega, within⟩
  · obtain ⟨read, level, needed⟩ := operand _ _ _ right_run
    refine ⟨read.unary taken is level within, le_rfl, ?_⟩
    simp only [Expr.entries]
    omega

theorem yields_assignment_succ
    (assignment : Yields (assignment entries) (·.entries + 1 ≤ entries))
    (operand : Yields (operand entries) (Expr.Fits 7 entries)) :
    Yields (Reading.assignment (entries + 1)) (·.entries + 1 ≤ entries + 1) := by
  intro r t r' run
  obtain ⟨target, r₁, target_run, outcome⟩ := cases_of_run_assignment run
  obtain ⟨targetRead, -, targetWithin⟩ := yields_climb operand (Nat.zero_le _) _ _ _ target_run
  obtain ⟨-, rfl, rfl⟩ | ⟨equals, ts, value, e, taken, isEqual, value_run, made, within, rfl⟩ :=
    outcome
  · exact ⟨targetRead, Nat.succ_le_succ targetWithin⟩
  · obtain ⟨valueRead, valueWithin⟩ := assignment _ _ _ value_run
    refine ⟨targetRead.assignTo taken isEqual valueRead made within, ?_⟩
    obtain ⟨id, name, is, rfl⟩ | ⟨object, name, is, rfl⟩ := assignTo?_eq_some_iff.1 made
    · simp only [Expr.entries]
      omega
    · simp only [is, Expr.entries] at targetWithin ⊢
      omega

theorem yields_rules (entries : Nat) :
    Yields (assignment entries) (·.entries + 1 ≤ entries) ∧
      Yields (operand entries) (Expr.Fits 7 entries) := by
  induction entries with
  | zero => exact ⟨fun _ _ _ run => (by cases run), fun _ _ _ run => (by cases run)⟩
  | succ entries ih =>
    exact ⟨yields_assignment_succ ih.1 ih.2, yields_operand_succ ih.1 ih.2⟩

theorem reads_expression {r r' : TokenReader} {e : Expr} (run : expression.run r = .ok e r') :
    Reads r ⟨e, e.countedHeight⟩ r' ∧ e.entries + 1 ≤ maxNesting := by
  have split : (assignment maxNesting >>= fun t => pure t.expr).run r = .ok e r' := run
  obtain ⟨t, r₁, t_run, done⟩ := run_bind_eq_ok_iff.1 split
  obtain ⟨read, within⟩ := (yields_rules maxNesting).1 _ _ _ t_run
  cases done
  exact ⟨⟨read.spelled, read.ids, read.nextId, read.wellFormed, rfl, read.bounded⟩, within⟩

end Reading

end ScopedExpr
