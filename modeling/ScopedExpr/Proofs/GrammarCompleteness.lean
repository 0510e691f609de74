import ScopedExpr.Proofs.GrammarSoundness

/-!
# The grammar is read

The tokens that spell a well-formed tree are read back as that tree, whatever comes
behind them, as long as it does not go on with the tree. The loops are followed one
round at a time: a tree that is an operand so far leaves the loop where it goes on from
there.
-/

namespace ScopedExpr

namespace Reading

/-- What lies behind a tree of a level: neither a point nor an operator of that level or
of a tighter one. -/
def Ends (level : Nat) (rest : List Token) : Prop :=
  ∀ t ts, rest = t :: ts →
    t.kind ≠ .punctuator .dot ∧ ∀ p, t.kind.precedence? = some p → p < level

theorem Ends.nil (level : Nat) : Ends level [] := nofun

theorem Ends.mono {a b : Nat} {rest : List Token} (h : Ends a rest) (le : a ≤ b) :
    Ends b rest := fun t ts is =>
  ⟨(h t ts is).1, fun p hp => Nat.lt_of_lt_of_le ((h t ts is).2 p hp) le⟩

/-- The tokens spell the tree, whose references are numbered from a number on, and both
bounds of nesting are kept. -/
structure Readable (e : Expr) (entries : Nat) (ts : List Token) (id : Nat) : Prop where
  spelled : e.Spells ts
  within : e.entries ≤ entries
  ids : e.referenceIds = List.range' id e.references.length
  bounded : e.countedHeight ≤ maxNesting

def behind (e : Expr) (rest : List Token) (stop : Token) (id : Nat) : TokenReader :=
  ⟨rest, stop, id + e.references.length⟩

def counted (e : Expr) : Subtree := ⟨e, e.countedHeight⟩

section Parts

variable {e l r o v : Expr} {name operator : Token} {n id k : Nat} {ts : List Token}

private theorem split_range' {a b : List Nat} {m : Nat} (length : a.length = m)
    (h : a ++ b = List.range' id (m + k)) : a = List.range' id m ∧ b = List.range' (id + m) k := by
  rw [← List.range'_append_1] at h
  exact List.append_inj h (by simpa using length)

theorem Readable.pos (h : Readable e n ts id) : 0 < n := Nat.lt_of_lt_of_le e.entries_pos h.within

theorem numbers_of_two {a b : Expr} (refs : e.references = a.references ++ b.references)
    (ids : e.referenceIds = List.range' id e.references.length) :
    a.referenceIds = List.range' id a.references.length ∧
      b.referenceIds = List.range' (id + a.references.length) b.references.length := by
  simp only [Expr.referenceIds, refs, List.map_append, List.length_append] at ids ⊢
  exact split_range' (by simp) ids

theorem Readable.node {i : Nat} (hi : i < levels.length)
    (h : Readable (levels[i].node l operator r) n ts id) :
    ∃ ls rs, ts = ls ++ operator :: rs ∧ Readable l n ls id ∧
      Readable r n rs (id + l.references.length) := by
  obtain ⟨leftIds, rightIds⟩ := numbers_of_two (references_node hi l operator r) h.ids
  have within := h.within
  have bounded := h.bounded
  rw [entries_node] at within
  rw [countedHeight_node] at bounded
  have parts : ∃ ls rs, ts = ls ++ operator :: rs ∧ l.Spells ls ∧ r.Spells rs := by
    have spelled := h.spelled
    rw [node_levels hi] at spelled
    split at spelled
    · cases spelled with
      | logical left right => exact ⟨_, _, rfl, left, right⟩
    · cases spelled with
      | binary left right => exact ⟨_, _, rfl, left, right⟩
  obtain ⟨ls, rs, rfl, left, right⟩ := parts
  exact ⟨ls, rs, rfl, ⟨left, by omega, leftIds, by omega⟩, ⟨right, by omega, rightIds, by omega⟩⟩

theorem Readable.unary (h : Readable (.unary operator e) (n + 1) ts id) :
    ∃ us, ts = operator :: us ∧ Readable e n us id := by
  have within := h.within
  have bounded := h.bounded
  simp only [Expr.entries, Expr.countedHeight] at within bounded
  cases h.spelled with
  | unary operand => exact ⟨_, rfl, operand, by omega, h.ids, by omega⟩

theorem Readable.grouping (h : Readable (.grouping e) (n + 2) ts id) :
    ∃ opening closing us, ts = opening :: us ++ [closing] ∧
      opening.kind = .punctuator .leftParen ∧ closing.kind = .punctuator .rightParen ∧
      Readable e n us id := by
  have within := h.within
  have bounded := h.bounded
  simp only [Expr.entries, Expr.countedHeight] at within bounded
  cases h.spelled with
  | grouping isOpening isClosing inner =>
    exact ⟨_, _, _, rfl, isOpening, isClosing, inner, by omega, h.ids, by omega⟩

theorem Readable.get (h : Readable (.get o name) n ts id) :
    ∃ dot us, ts = us ++ [dot, name] ∧ dot.kind = .punctuator .dot ∧ Readable o n us id := by
  have bounded := h.bounded
  simp only [Expr.countedHeight] at bounded
  cases h.spelled with
  | get isDot object => exact ⟨_, _, rfl, isDot, object, h.within, h.ids, by omega⟩

/-- The parts of an assignment; its value has one rule entry less. -/
theorem Readable.assignTo {target : Expr} (made : assignTo? target v = some e)
    (h : Readable e n ts id) :
    max target.countedHeight v.countedHeight + 1 = e.countedHeight ∧
    ∃ m ls equals us, n = m + 1 ∧ ts = ls ++ equals :: us ∧
      equals.kind = .punctuator .equal ∧ Readable target n ls id ∧
      Readable v m us (id + target.references.length) := by
  have within := h.within
  have bounded := h.bounded
  have positive := v.countedHeight_pos
  obtain ⟨k, name, rfl, rfl⟩ | ⟨object, name, rfl, rfl⟩ := assignTo?_eq_some_iff.1 made
  · obtain ⟨targetIds, valueIds⟩ := numbers_of_two (a := .reference k name) (b := v) rfl h.ids
    simp only [Expr.entries, Expr.countedHeight] at within bounded ⊢
    refine ⟨by omega, n - 1, ?_⟩
    cases h.spelled with
    | assign isEqual value =>
      exact ⟨[name], _, _, by omega, rfl, isEqual,
        ⟨.reference, h.pos, targetIds, one_le_maxNesting⟩,
        ⟨value, by omega, valueIds, by omega⟩⟩
  · obtain ⟨targetIds, valueIds⟩ := numbers_of_two (a := .get object name) (b := v) rfl h.ids
    simp only [Expr.entries, Expr.countedHeight] at within bounded ⊢
    refine ⟨trivial, n - 1, ?_⟩
    cases h.spelled with
    | @set _ _ dot equals _ ts us isDot isEqual inner value =>
      refine ⟨ts ++ [dot, name], equals, us, by omega, by simp, isEqual,
        ⟨.get isDot inner, ?_, targetIds, ?_⟩, ⟨value, by omega, valueIds, by omega⟩⟩
      · simp only [Expr.entries]
        omega
      · simp only [Expr.countedHeight]
        omega

end Parts

theorem run_accept?_none {wanted : TokenKind → Bool} {r : TokenReader}
    (h : ∀ t ts, r.rest = t :: ts → wanted t.kind = false) :
    (accept? wanted).run r = .ok none r := by
  cases hr : r.rest with
  | nil => exact run_accept?_nil hr
  | cons t ts => exact run_accept?_of_neg hr (h t ts hr)

theorem run_acceptMark?_none {mark : Punctuator} {r : TokenReader}
    (h : ∀ t ts, r.rest = t :: ts → t.kind ≠ .punctuator mark) :
    (acceptMark? mark).run r = .ok none r :=
  run_accept?_none fun t ts is => beq_eq_false_iff_ne.2 (h t ts is)

theorem run_chainFrom_of_ends {i : Nat} (h : i < levels.length) {sub : Reading Subtree}
    {bound : Nat} {left : Subtree} {r : TokenReader} (ends : Ends (i + 1) r.rest) :
    (chainFrom levels[i] sub bound left).run r = .ok left r := by
  cases bound with
  | zero => rfl
  | succ bound =>
    have none : (accept? levels[i].isOperator).run r = .ok none r := by
      apply run_accept?_none
      intro t ts is
      rw [Bool.eq_false_iff, ne_eq, isOperator_levels_iff h]
      intro precedence
      exact Nat.lt_irrefl _ ((ends t ts is).2 _ precedence)
    exact run_bind_of_ok none

theorem run_propertiesFrom_of_ends {bound level : Nat} {object : Subtree} {r : TokenReader}
    (ends : Ends level r.rest) : (propertiesFrom bound object).run r = .ok object r := by
  cases bound with
  | zero => rfl
  | succ bound =>
    exact run_bind_of_ok (run_acceptMark?_none fun t ts is => (ends t ts is).1)

theorem run_joinHeights_of_le {a b : Nat} {place : Token} {r : TokenReader}
    (h : max a b + 1 ≤ maxNesting) : (joinHeights a b place).run r = .ok (max a b + 1) r :=
  run_joinHeights_eq_ok_iff.2 ⟨h, rfl, rfl⟩

theorem run_joinHeights_zero {a : Nat} (place : Token) (r : TokenReader)
    (h : a + 1 ≤ maxNesting) : (joinHeights a 0 place).run r = .ok (a + 1) r := by
  rw [run_joinHeights_of_le (by simpa using h), Nat.max_eq_left (Nat.zero_le _)]

/-- From the level on, the tree is read where its tokens end. -/
def ClimbsAt (i : Nat) (e : Expr) : Prop :=
  ∀ n ts rest stop id, Readable e n ts id → Ends (i + 1) rest →
    (climb (levels.drop i) (operand n)).run ⟨ts ++ rest, stop, id⟩ =
      .ok (counted e) (behind e rest stop id)

/-- From the level on, the tree is read as what stands left in the loop of the level. -/
def ChainsAt (i : Nat) (e : Expr) : Prop :=
  ∀ (h : i < levels.length) n ts rest stop id, Readable e n ts id → Ends (i + 2) rest →
    ∃ bound, rest.length ≤ bound ∧
      (climb (levels.drop i) (operand n)).run ⟨ts ++ rest, stop, id⟩ =
        (chainFrom levels[i] (climb (levels.drop (i + 1)) (operand n)) bound (counted e)).run
          (behind e rest stop id)

/-- The tree is read as the object in the loop over properties. -/
def CallsAt (e : Expr) : Prop :=
  ∀ n ts rest stop id, Readable e n ts id →
    ∃ bound, rest.length ≤ bound ∧ (operand n).run ⟨ts ++ rest, stop, id⟩ =
      (propertiesFrom bound (counted e)).run (behind e rest stop id)

def Assigns (e : Expr) : Prop :=
  ∀ n ts rest stop id, Readable e n ts id → Ends 1 rest →
    (∀ t us, rest = t :: us → t.kind ≠ .punctuator .equal) →
      (assignment (n + 1)).run ⟨ts ++ rest, stop, id⟩ = .ok (counted e) (behind e rest stop id)

variable {e l r o v : Expr} {name operator : Token} {i : Nat}

theorem ClimbsAt.of_chainsAt (hi : i < levels.length) (h : ChainsAt i e) : ClimbsAt i e := by
  intro n ts rest stop id readable ends
  obtain ⟨bound, -, run⟩ := h hi n ts rest stop id readable (ends.mono (Nat.le_succ _))
  rw [run]
  exact run_chainFrom_of_ends hi ends

theorem ChainsAt.of_climbsAt (h : ClimbsAt (i + 1) e) : ChainsAt i e := by
  intro hi n ts rest stop id readable ends
  refine ⟨rest.length, le_rfl, ?_⟩
  rw [List.drop_eq_getElem_cons hi]
  exact run_bind_of_ok (h n ts rest stop id readable ends)

/-- An operator with its right operand is one round of the loop. -/
theorem ChainsAt.node (hi : i < levels.length) (is : operator.kind.precedence? = some (i + 1))
    (left : ChainsAt i l) (right : ClimbsAt (i + 1) r) :
    ChainsAt i (levels[i].node l operator r) := by
  intro _ n ts rest stop id readable ends
  have within := readable.bounded
  rw [countedHeight_node] at within
  obtain ⟨ls, rs, rfl, leftReadable, rightReadable⟩ := readable.node hi
  have operatorEnds : Ends (i + 2) (operator :: (rs ++ rest)) := by
    rintro t ts ⟨⟩
    refine ⟨fun dot => ?_, fun p hp => ?_⟩
    · simp [dot, TokenKind.precedence?] at is
    · rw [is] at hp
      cases hp
      exact Nat.lt_succ_self _
  obtain ⟨bound, enough, run⟩ := left hi n ls _ stop id leftReadable operatorEnds
  obtain ⟨bound, rfl⟩ : ∃ b, bound = b + 1 :=
    Nat.exists_eq_succ_of_ne_zero (by rintro rfl; simp at enough)
  refine ⟨bound, by simp at enough; omega, ?_⟩
  rw [List.append_assoc, List.cons_append, run]
  have taken : (accept? levels[i].isOperator).run
      (behind l (operator :: (rs ++ rest)) stop id) =
        .ok (some operator) (behind l (rs ++ rest) stop id) :=
    run_accept?_of_pos rfl ((isOperator_levels_iff hi).2 is)
  have operand := right n rs rest stop _ rightReadable ends
  have joined : (joinHeights (counted l).height (counted r).height operator).run
      (behind r rest stop (id + l.references.length)) = .ok _ _ := run_joinHeights_of_le within
  have round : counted (levels[i].node l operator r) =
      ⟨levels[i].node l operator r, max (counted l).height (counted r).height + 1⟩ := by
    rw [counted, countedHeight_node]
    rfl
  have place : behind (levels[i].node l operator r) rest stop id =
      behind r rest stop (id + l.references.length) := by
    rw [behind, behind, references_node, List.length_append, Nat.add_assoc]
  rw [round, place]
  exact (run_bind_of_ok taken).trans ((run_bind_of_ok operand).trans (run_bind_of_ok joined))

theorem ClimbsAt.of_le {j : Nat} (h : ClimbsAt j e) (le : i ≤ j) (hj : j ≤ levels.length) :
    ClimbsAt i e := by
  induction le using Nat.decreasingInduction with
  | self => exact h
  | of_succ i lt ih => exact .of_chainsAt (Nat.lt_of_lt_of_le lt hj) (.of_climbsAt ih)

theorem CallsAt.climbsAt (h : CallsAt e) : ClimbsAt levels.length e := by
  intro n ts rest stop id readable ends
  obtain ⟨bound, -, run⟩ := h n ts rest stop id readable
  rw [List.drop_length]
  exact run.trans (run_propertiesFrom_of_ends ends)

theorem run_operand_of_primary {n : Nat} {reader behind : TokenReader} {t : Token}
    {ts : List Token} {object : Subtree} (hr : reader.rest = t :: ts)
    (notUnary : isUnaryOperator t.kind = false)
    (run : (primary (assignment n)).run reader = .ok object behind) :
    (operand (n + 1)).run reader = (propertiesFrom behind.rest.length object).run behind := by
  have none : (accept? isUnaryOperator).run reader = .ok none reader :=
    run_accept?_of_neg hr notUnary
  exact (run_bind_of_ok none).trans (run_bind_of_ok run)

theorem isUnaryOperator_tokenKind (v : Value) : isUnaryOperator v.tokenKind = false := by
  rcases v with _ | (_ | _) | _ | _ | _ <;> rfl

theorem callsAt_literal (v : Value) : CallsAt (.literal v) := by
  intro n ts rest stop id readable
  obtain ⟨n, rfl⟩ := Nat.exists_eq_succ_of_ne_zero readable.pos.ne'
  refine ⟨rest.length, le_rfl, ?_⟩
  cases readable.spelled with
  | @literal _ t kind =>
    have read : (primary (assignment n)).run ⟨t :: rest, stop, id⟩ = .ok ⟨.literal v, 1⟩ _ :=
      run_primary_literal rfl (literal?_eq_some_iff.2 kind)
    exact run_operand_of_primary rfl (kind ▸ isUnaryOperator_tokenKind v) read

theorem callsAt_reference (named : name.kind = .identifier) (k : Nat) :
    CallsAt (.reference k name) := by
  intro n ts rest stop id readable
  obtain ⟨n, rfl⟩ := Nat.exists_eq_succ_of_ne_zero readable.pos.ne'
  obtain rfl : k = id := by simpa [Expr.referenceIds, Expr.references] using readable.ids
  refine ⟨rest.length, le_rfl, ?_⟩
  cases readable.spelled with
  | reference =>
    have read : (primary (assignment n)).run ⟨name :: rest, stop, k⟩ =
        .ok ⟨.reference k name, 1⟩ _ := run_primary_identifier rfl named
    exact run_operand_of_primary rfl (by rw [named]; rfl) read

theorem ends_rightParen {closing : Token} (is : closing.kind = .punctuator .rightParen)
    (rest : List Token) : Ends 1 (closing :: rest) := by
  rintro t ts ⟨⟩
  rw [is]
  exact ⟨by decide, fun p hp => by cases hp⟩

theorem callsAt_grouping (inner : Assigns e) : CallsAt (.grouping e) := by
  intro n ts rest stop id readable
  have needed : e.entries + 2 ≤ n := readable.within
  have within : e.countedHeight + 1 ≤ maxNesting := readable.bounded
  obtain ⟨n, rfl⟩ : ∃ m, n = m + 2 := ⟨n - 2, by omega⟩
  obtain ⟨opening, closing, us, rfl, isOpening, isClosing, innerReadable⟩ := readable.grouping
  refine ⟨rest.length, le_rfl, ?_⟩
  have nested := inner n us (closing :: rest) stop id innerReadable
    (ends_rightParen isClosing rest) (by rintro t us ⟨⟩; simp [isClosing])
  have closed : (acceptMark? .rightParen).run (behind e (closing :: rest) stop id) =
      .ok (some closing) (behind e rest stop id) :=
    run_accept?_of_pos rfl (beq_iff_eq.2 isClosing)
  have joined := run_joinHeights_zero opening (behind e rest stop id) within
  have group : (group (assignment (n + 1)) opening).run ⟨us ++ closing :: rest, stop, id⟩ =
      .ok (counted (.grouping e)) (behind e rest stop id) :=
    (run_bind_of_ok nested).trans ((run_bind_of_ok closed).trans (run_bind_of_ok joined))
  have read : (primary (assignment (n + 1))).run
      ⟨opening :: (us ++ closing :: rest), stop, id⟩ = .ok (counted (.grouping e)) _ :=
    (run_primary_group rfl isOpening).trans group
  have whole := run_operand_of_primary rfl (by rw [isOpening]; rfl) read
  rw [List.append_assoc]
  exact whole

theorem CallsAt.get (named : name.kind = .identifier) (object : CallsAt o) :
    CallsAt (.get o name) := by
  intro n ts rest stop id readable
  have within : o.countedHeight + 1 ≤ maxNesting := readable.bounded
  obtain ⟨dot, us, rfl, isDot, objectReadable⟩ := readable.get
  obtain ⟨bound, enough, run⟩ := object n us (dot :: name :: rest) stop id objectReadable
  obtain ⟨bound, rfl⟩ : ∃ b, bound = b + 1 :=
    Nat.exists_eq_succ_of_ne_zero (by rintro rfl; simp at enough)
  refine ⟨bound, by simp at enough; omega, ?_⟩
  have dotted : (acceptMark? .dot).run (behind o (dot :: name :: rest) stop id) =
      .ok (some dot) (behind o (name :: rest) stop id) :=
    run_accept?_of_pos rfl (beq_iff_eq.2 isDot)
  have taken : (accept? (· == .identifier)).run (behind o (name :: rest) stop id) =
      .ok (some name) (behind o rest stop id) :=
    run_accept?_of_pos rfl (beq_iff_eq.2 named)
  have joined := run_joinHeights_zero name (behind o rest stop id) within
  rw [List.append_assoc]
  exact run.trans ((run_bind_of_ok dotted).trans
    ((run_bind_of_ok taken).trans (run_bind_of_ok joined)))

theorem climbsAt_unary (is : isUnaryOperator operator.kind = true)
    (operand : ClimbsAt levels.length e) : ClimbsAt levels.length (.unary operator e) := by
  intro n ts rest stop id readable ends
  obtain ⟨n, rfl⟩ := Nat.exists_eq_succ_of_ne_zero readable.pos.ne'
  have within : e.countedHeight + 1 ≤ maxNesting := readable.bounded
  obtain ⟨us, rfl, operandReadable⟩ := readable.unary
  have taken : (accept? isUnaryOperator).run ⟨operator :: (us ++ rest), stop, id⟩ =
      .ok (some operator) ⟨us ++ rest, stop, id⟩ := run_accept?_of_pos rfl is
  have read := operand n us rest stop id operandReadable ends
  rw [List.drop_length] at read ⊢
  have joined := run_joinHeights_zero operator (behind e rest stop id) within
  exact (run_bind_of_ok taken).trans ((run_bind_of_ok read).trans (run_bind_of_ok joined))

theorem Assigns.of_climbsAt (h : ClimbsAt 0 e) : Assigns e := by
  intro n ts rest stop id readable ends notEqual
  have read := h n ts rest stop id readable ends
  have none : (acceptMark? .equal).run (behind e rest stop id) = .ok none _ :=
    run_acceptMark?_none notEqual
  exact (run_bind_of_ok read).trans (run_bind_of_ok none)

/-- Once target and value are read, what is left is to count their heights. -/
theorem run_assignment_of_parts {target : Expr} {ls us : List Token} {equals : Token}
    {m id : Nat} (climbs : ClimbsAt 0 target) (value : Assigns v)
    (made : assignTo? target v = some e) (isEqual : equals.kind = .punctuator .equal)
    (targetReadable : Readable target (m + 1) ls id)
    (valueReadable : Readable v m us (id + target.references.length)) (rest : List Token)
    (stop : Token) (ends : Ends 1 rest)
    (notEqual : ∀ t ts, rest = t :: ts → t.kind ≠ .punctuator .equal) :
    (assignment (m + 2)).run ⟨ls ++ equals :: (us ++ rest), stop, id⟩ =
      (joinHeights target.countedHeight v.countedHeight equals >>= fun height =>
        pure (⟨e, height⟩ : Subtree)).run
          (behind v rest stop (id + target.references.length)) := by
  have targetEnds : Ends 1 (equals :: (us ++ rest)) := by
    rintro t ts ⟨⟩
    rw [isEqual]
    exact ⟨by decide, fun p hp => by cases hp⟩
  have targetRead := climbs _ ls (equals :: (us ++ rest)) stop id targetReadable targetEnds
  have taken : (acceptMark? .equal).run (behind target (equals :: (us ++ rest)) stop id) =
      .ok (some equals) (behind target (us ++ rest) stop id) :=
    run_accept?_of_pos rfl (beq_iff_eq.2 isEqual)
  have valueRead := value m us rest stop _ valueReadable ends notEqual
  have made' : assignTo? (counted target).expr (counted v).expr = some e := made
  refine (run_bind_of_ok targetRead).trans ((run_bind_of_ok taken).trans
    ((run_bind_of_ok valueRead).trans ?_))
  rw [made']
  rfl

theorem Assigns.of_target {target : Expr} (climbs : ClimbsAt 0 target) (value : Assigns v)
    (made : assignTo? target v = some e) : Assigns e := by
  intro n ts rest stop id readable ends notEqual
  obtain ⟨height, m, ls, equals, us, rfl, rfl, isEqual, targetReadable, valueReadable⟩ :=
    readable.assignTo made
  have within : max target.countedHeight v.countedHeight + 1 ≤ maxNesting :=
    height ▸ readable.bounded
  have refs : e.references = target.references ++ v.references := by
    obtain ⟨k, name, rfl, rfl⟩ | ⟨object, name, rfl, rfl⟩ := assignTo?_eq_some_iff.1 made <;> rfl
  have place : behind e rest stop id = behind v rest stop (id + target.references.length) := by
    rw [behind, behind, refs, List.length_append, Nat.add_assoc]
  rw [counted, ← height, place, List.append_assoc]
  exact (run_assignment_of_parts climbs value made isEqual targetReadable valueReadable rest stop
    ends notEqual).trans (run_bind_of_ok (run_joinHeights_of_le within))

/-- A tree is read by every rule that its level allows. -/
structure IsRead (e : Expr) : Prop where
  climbs : ∀ i ≤ levels.length, i + 1 ≤ e.level → ClimbsAt i e
  chains : ∀ i, i + 1 ≤ e.level → ChainsAt i e
  calls : e.level = 8 → CallsAt e
  assigns : Assigns e

theorem IsRead.of_climbsAt {j : Nat} (hj : j ≤ levels.length) (h : ClimbsAt j e)
    (chains : ∀ i, i + 1 ≤ e.level → j ≤ i → ChainsAt i e)
    (level : ∀ i ≤ levels.length, i + 1 ≤ e.level → i ≤ j)
    (calls : e.level = 8 → CallsAt e) : IsRead e where
  climbs i hi le := h.of_le (level i hi le) hj
  chains i le := by
    by_cases lt : i < j
    · exact .of_climbsAt (h.of_le lt hj)
    · exact chains i le (Nat.le_of_not_lt lt)
  calls := calls
  assigns := .of_climbsAt (h.of_le (Nat.zero_le _) hj)

theorem IsRead.of_operand (h : ClimbsAt levels.length e) (calls : e.level = 8 → CallsAt e) :
    IsRead e :=
  .of_climbsAt le_rfl h (fun _ _ le hi => absurd hi (Nat.not_lt.2 le)) (fun _ hi _ => hi) calls

theorem IsRead.of_calls (h : CallsAt e) : IsRead e := .of_operand h.climbsAt fun _ => h

theorem IsRead.of_node (hi : i < levels.length) (is : operator.kind.precedence? = some (i + 1))
    (left : ChainsAt i l) (right : ClimbsAt (i + 1) r) :
    IsRead (levels[i].node l operator r) := by
  have level := level_node hi (l := l) (r := r) is
  have chain := ChainsAt.node hi is left right
  refine .of_climbsAt hi.le (.of_chainsAt hi chain) (fun j le ge => ?_) (fun j _ le => ?_) ?_
  · obtain rfl : j = i := by omega
    exact chain
  · omega
  · intro call
    rw [length_levels] at hi
    omega

/-- A target has no operators, and neither it nor the whole is anything but an
assignment. -/
theorem IsRead.of_target {target : Expr} (climbs : ClimbsAt 0 target) (value : Assigns v)
    (made : assignTo? target v = some e) : IsRead e := by
  have level : e.level = 0 := by
    obtain ⟨k, name, rfl, rfl⟩ | ⟨object, name, rfl, rfl⟩ := assignTo?_eq_some_iff.1 made <;> rfl
  refine ⟨fun i _ le => ?_, fun i le => ?_, fun call => ?_, .of_target climbs value made⟩ <;> omega

theorem IsRead.of_operator (hi : i < levels.length)
    (is : operator.kind.precedence? = some (i + 1)) (left : IsRead l) (right : IsRead r)
    (leftLevel : i + 1 ≤ l.level) (rightLevel : i + 1 < r.level) :
    IsRead (levels[i].node l operator r) :=
  .of_node hi is (left.chains i leftLevel) (right.climbs (i + 1) hi rightLevel)

/-- Every well-formed tree is read from its tokens. -/
theorem isRead_of_wellFormed (wf : e.WellFormed) : IsRead e := by
  induction e with
  | literal v => exact .of_calls (callsAt_literal v)
  | grouping e ih => exact .of_calls (callsAt_grouping (ih wf).assigns)
  | reference id name => exact .of_calls (callsAt_reference wf id)
  | assign id name v ih =>
    have target := IsRead.of_calls (callsAt_reference wf.1 id)
    exact .of_target (target.climbs 0 (Nat.zero_le _) (by simp [Expr.level])) (ih wf.2).assigns rfl
  | get o name ih =>
    obtain ⟨level, objectFormed, named⟩ := wf
    exact .of_calls (((ih objectFormed).calls level).get named)
  | set o name v objectRead valueRead =>
    obtain ⟨level, objectFormed, named, valueFormed⟩ := wf
    have target := IsRead.of_calls (((objectRead objectFormed).calls level).get named)
    exact .of_target (target.climbs 0 (Nat.zero_le _) (by simp [Expr.level]))
      (valueRead valueFormed).assigns rfl
  | unary operator e ih =>
    obtain ⟨is, level, operandFormed⟩ := wf
    have operand := (ih operandFormed).climbs levels.length le_rfl level
    exact .of_operand (climbsAt_unary (isUnaryOperator_iff.2 is) operand) (by simp [Expr.level])
  | binary l operator r left right =>
    obtain ⟨p, is, tight, leftLevel, rightLevel, leftFormed, rightFormed⟩ := wf
    obtain ⟨i, hi, rfl⟩ := exists_level_of_precedence? is
    have same : levels[i].node l operator r = .binary l operator r := by
      rw [node_levels hi, if_neg (by omega)]
    exact same ▸ .of_operator hi is (left leftFormed) (right rightFormed) leftLevel rightLevel
  | logical l operator r left right =>
    obtain ⟨p, is, loose, leftLevel, rightLevel, leftFormed, rightFormed⟩ := wf
    obtain ⟨i, hi, rfl⟩ := exists_level_of_precedence? is
    have same : levels[i].node l operator r = .logical l operator r := by
      rw [node_levels hi, if_pos (by omega)]
    exact same ▸ .of_operator hi is (left leftFormed) (right rightFormed) leftLevel rightLevel

/-- The tokens of a well-formed tree, numbered from where the reader is, are taken. -/
theorem run_expression_of_readable {ts : List Token} {id : Nat} (wf : e.WellFormed)
    (readable : Readable e (maxNesting - 1) ts id) (rest : List Token) (stop : Token)
    (ends : Ends 1 rest)
    (notEqual : ∀ t us, rest = t :: us → t.kind ≠ .punctuator .equal) :
    expression.run ⟨ts ++ rest, stop, id⟩ = .ok e (behind e rest stop id) := by
  have read := (isRead_of_wellFormed wf).assigns _ ts rest stop id readable ends notEqual
  have whole : (assignment maxNesting >>= fun t => pure t.expr).run ⟨ts ++ rest, stop, id⟩ =
      .ok e (behind e rest stop id) := run_bind_of_ok read
  exact whole

end Reading

end ScopedExpr
