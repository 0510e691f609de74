import ScopedExpr.Proofs.ReadingSteps

/-!
# Local reading

Two readers have the same tokens ahead as far as one of them is going to read, and see the
same next token there. Then the rules take the same steps on both: they end at the same
place with the same outcome, up to the numbers of references, which go on from where each of
the readers began.
-/

namespace ScopedExpr

namespace Expr

def mapIds (f : Nat → Nat) : Expr → Expr
  | literal v => literal v
  | grouping e => grouping (e.mapIds f)
  | reference id name => reference (f id) name
  | assign id name v => assign (f id) name (v.mapIds f)
  | get o name => get (o.mapIds f) name
  | set o name v => set (o.mapIds f) name (v.mapIds f)
  | unary operator e => unary operator (e.mapIds f)
  | binary l operator r => binary (l.mapIds f) operator (r.mapIds f)
  | logical l operator r => logical (l.mapIds f) operator (r.mapIds f)

variable {f g : Nat → Nat}

theorem mapIds_mapIds (e : Expr) : (e.mapIds f).mapIds g = e.mapIds fun id => g (f id) := by
  induction e <;> simp_all [mapIds]

/-- The numbers on both sides of an equals sign can be changed before or behind it. -/
theorem assignTo?_mapIds (target value : Expr) :
    Reading.assignTo? (target.mapIds f) (value.mapIds f) =
      (Reading.assignTo? target value).map (mapIds f) := by
  cases target <;> rfl

theorem node_mapIds {level : Reading.Level} (h : level ∈ Reading.levels) (l r : Expr)
    (operator : Token) : level.node (l.mapIds f) operator (r.mapIds f) =
      (level.node l operator r).mapIds f := by
  have nodes : level.node = .logical ∨ level.node = .binary := by
    simp only [Reading.levels, List.mem_cons, List.not_mem_nil, or_false] at h
    rcases h with rfl | rfl | rfl | rfl | rfl | rfl <;> simp
  obtain is | is := nodes <;> rw [is] <;> rfl

end Expr

def Subtree.mapIds (f : Nat → Nat) (t : Subtree) : Subtree :=
  { t with expr := t.expr.mapIds f }

namespace TokenReader

/-- A reader with some tokens more ahead, which has given out some numbers more. -/
def before (p : TokenReader) (ahead : List Token) (given : Nat) : TokenReader :=
  { p with rest := ahead ++ p.rest, nextId := p.nextId + given }

/-- Two readers that have the same next token, or none both and the same end. -/
structure SeesSame (p q : TokenReader) : Prop where
  next : p.rest.head? = q.rest.head?
  current : p.current = q.current

namespace SeesSame

variable {p q : TokenReader}

theorem current_before (h : p.SeesSame q) (ahead : List Token) (given : Nat) :
    (q.before ahead given).current = (p.before ahead given).current := by
  cases ahead with
  | nil => exact h.current.symm
  | cons t ahead => rfl

/-- With the same tokens more, both have no token ahead or the same one. If the one behind
which the first has all its tokens is taken, so does the other. -/
theorem next_before (h : p.SeesSame q) (ahead : List Token) (given : Nat) :
    ((p.before ahead given).rest = [] ∧ (q.before ahead given).rest = []) ∨
      ∃ t ts us, (p.before ahead given).rest = t :: ts ∧ (q.before ahead given).rest = t :: us ∧
        (p.rest.length ≤ ts.length → ∃ left, ts = left ++ p.rest ∧ us = left ++ q.rest) := by
  cases ahead with
  | cons t ahead => exact .inr ⟨t, _, _, rfl, rfl, fun _ => ⟨ahead, rfl, rfl⟩⟩
  | nil =>
    have next := h.next
    cases hp : p.rest with
    | nil =>
      rw [hp, List.head?_nil, eq_comm, List.head?_eq_none_iff] at next
      exact .inl ⟨hp, next⟩
    | cons t ts =>
      rw [hp, List.head?_cons, eq_comm, List.head?_eq_some_iff] at next
      obtain ⟨us, hq⟩ := next
      refine .inr ⟨t, ts, us, hp, hq, fun beyond => absurd beyond ?_⟩
      rw [List.length_cons]
      exact Nat.not_succ_le_self _

end SeesSame

end TokenReader

open TokenReader

/-- The numbers that one reader gives out, as another one gives them out. -/
def renumber (p q : TokenReader) (id : Nat) : Nat := id - p.nextId + q.nextId

theorem renumber_given (p q : TokenReader) (given : Nat) :
    renumber p q (p.nextId + given) = q.nextId + given := by
  unfold renumber
  omega

/-- The same outcome at the same place before the ends of two readings. -/
inductive SameOutcome {α β : Type} (p q : TokenReader) (image : α → β) :
    EStateM.Result ParseError TokenReader α → EStateM.Result ParseError TokenReader β → Prop where
  | ok (a ahead given) :
      SameOutcome p q image (.ok a (p.before ahead given)) (.ok (image a) (q.before ahead given))
  | error (e ahead given) :
      SameOutcome p q image (.error e (p.before ahead given)) (.error e (q.before ahead given))

/-- A step that stays before the end of the first reading has the same outcome there and in
the second reading. -/
structure Local {α β : Type} (p q : TokenReader) (image : α → β) (x : Reading α)
    (y : Reading β) : Prop where
  forward : Reading.Forward x
  same : ∀ ahead given,
    p.rest.length ≤ ((p.before ahead given).attempt x).2.rest.length →
      SameOutcome p q image (x.run (p.before ahead given)) (y.run (q.before ahead given))

namespace Reading

variable {α β γ δ : Type}

theorem attempt_bind_of_ok {x : Reading α} {f : α → Reading β} {r r₁ : TokenReader} {a : α}
    (h : x.run r = .ok a r₁) : r.attempt (x >>= f) = r₁.attempt (f a) := by
  unfold attempt
  rw [run_bind_of_ok h]

theorem attempt_bind_of_error {x : Reading α} {f : α → Reading β} {r r₁ : TokenReader}
    {e : ParseError} (h : x.run r = .error e r₁) : r.attempt (x >>= f) = (.error e, r₁) :=
  attempt_eq_error_iff.2 (run_bind_eq_error_iff.2 (.inl h))

theorem run_bind_congr {x : Reading α} {f g : α → Reading β} {r : TokenReader}
    (same : ∀ a r₁, x.run r = .ok a r₁ → (f a).run r₁ = (g a).run r₁) :
    (x >>= f).run r = (x >>= g).run r := by
  rw [EStateM.run_bind, EStateM.run_bind]
  cases run : x.run r with
  | ok a r₁ => exact same a r₁ run
  | error e r₁ => rfl

/-- Once a loop may take as many rounds as there are tokens, more rounds change nothing. -/
def Settles (loop : Nat → Reading α) : Prop :=
  ∀ r n, r.rest.length ≤ n → (loop (n + 1)).run r = (loop n).run r

theorem Settles.run_eq {loop : Nat → Reading α} (h : Settles loop) {r : TokenReader} {m n : Nat}
    (enough : r.rest.length ≤ m) (le : m ≤ n) : (loop n).run r = (loop m).run r := by
  induction le with
  | refl => rfl
  | step le ih => rw [h r _ (Nat.le_trans enough le), ih]

theorem settles_chainFrom {level : Level} {sub : Reading Subtree} (forward : Forward sub)
    (left : Subtree) : Settles fun n => chainFrom level sub n left := by
  intro r n enough
  induction n generalizing r left with
  | zero =>
    have none : r.rest = [] := List.eq_nil_of_length_eq_zero (Nat.le_zero.1 enough)
    exact run_bind_of_ok (run_accept?_nil none)
  | succ n ih =>
    refine run_bind_congr fun o r₁ accepted => ?_
    obtain ⟨rfl, rfl⟩ | ⟨operator, ts, rfl, taken, -, rfl⟩ := of_run_accept? accepted
    · rfl
    · refine run_bind_congr fun right r₂ right_run => run_bind_congr fun height r₃ joined => ?_
      obtain ⟨-, -, rfl⟩ := run_joinHeights_eq_ok_iff.1 joined
      have shorter := (forward.of_ok right_run).suffix.length_le
      rw [taken, List.length_cons] at enough
      exact ih _ _ (Nat.le_trans shorter (Nat.le_of_succ_le_succ enough))

theorem settles_propertiesFrom (object : Subtree) :
    Settles fun n => propertiesFrom n object := by
  intro r n enough
  induction n generalizing r object with
  | zero =>
    have none : r.rest = [] := List.eq_nil_of_length_eq_zero (Nat.le_zero.1 enough)
    exact run_bind_of_ok (run_accept?_nil none)
  | succ n ih =>
    refine run_bind_congr fun o r₁ accepted => ?_
    obtain ⟨rfl, rfl⟩ | ⟨dot, ts, rfl, taken, -, rfl⟩ := of_run_accept? accepted
    · rfl
    · refine run_bind_congr fun o r₂ named => ?_
      have forward := (Forward.accept? (· == .identifier)).of_ok named
      cases o with
      | none => rfl
      | some name =>
        refine run_bind_congr fun height r₃ joined => ?_
        obtain ⟨-, -, rfl⟩ := run_joinHeights_eq_ok_iff.1 joined
        have shorter := forward.suffix.length_le
        rw [taken, List.length_cons] at enough
        exact ih _ _ (Nat.le_trans shorter (Nat.le_of_succ_le_succ enough))

end Reading

namespace Local

open Reading

variable {α β γ δ : Type} {p q : TokenReader} {image : α → β} {image' : γ → δ} {x : Reading α}
  {y : Reading β} {f : α → Reading γ} {g : β → Reading δ}

theorem pure (a : α) : Local p q image (Pure.pure a) (Pure.pure (image a)) :=
  ⟨.pure a, fun ahead given _ => .ok a ahead given⟩

theorem throw (e : ParseError) : Local p q image (MonadExcept.throw e) (MonadExcept.throw e) :=
  ⟨.throw e, fun ahead given _ => .error e ahead given⟩

theorem failHere (h : p.SeesSame q) (fault : ParseFault) :
    Local p q image (Reading.failHere fault) (Reading.failHere fault) := by
  refine ⟨.failHere fault, fun ahead given _ => ?_⟩
  rw [run_failHere, run_failHere, h.current_before]
  exact .error _ ahead given

theorem joinHeights (a b : Nat) (place : Token) :
    Local p q id (Reading.joinHeights a b place) (Reading.joinHeights a b place) := by
  refine ⟨.joinHeights a b place, fun ahead given _ => ?_⟩
  rw [run_joinHeights, run_joinHeights]
  split
  · exact .error _ ahead given
  · exact .ok _ ahead given

theorem accept? (h : p.SeesSame q) (wanted : TokenKind → Bool) :
    Local p q id (Reading.accept? wanted) (Reading.accept? wanted) := by
  refine ⟨.accept? wanted, fun ahead given stays => ?_⟩
  obtain ⟨hp, hq⟩ | ⟨t, ts, us, hp, hq, taken⟩ := h.next_before ahead given
  · rw [run_accept?_nil hp, run_accept?_nil hq]
    exact .ok none ahead given
  · cases is : wanted t.kind with
    | false =>
      rw [run_accept?_of_neg hp is, run_accept?_of_neg hq is]
      exact .ok none ahead given
    | true =>
      rw [attempt_eq_ok_iff.2 (run_accept?_of_pos hp is)] at stays
      obtain ⟨left, rfl, rfl⟩ := taken stays
      rw [run_accept?_of_pos hp is, run_accept?_of_pos hq is]
      exact .ok (some t) left given

theorem bind (first : Local p q image x y) (next : ∀ a, Local p q image' (f a) (g (image a))) :
    Local p q image' (x >>= f) (y >>= g) := by
  refine ⟨first.forward.bind fun a => (next a).forward, fun ahead given stays => ?_⟩
  have start := first.same ahead given
  rw [EStateM.run_bind, EStateM.run_bind]
  generalize y.run (q.before ahead given) = other at start ⊢
  cases run : x.run (p.before ahead given) with
  | error e r₁ =>
    rw [attempt_bind_of_error run] at stays
    rw [attempt_eq_error_iff.2 run, run] at start
    cases start stays with
    | error => exact .error _ _ _
  | ok a r₁ =>
    -- what comes behind the first step only goes on, so the first step stays before the end
    have behind := ((next a).forward r₁).suffix.length_le
    rw [attempt_bind_of_ok run] at stays
    rw [attempt_eq_ok_iff.2 run, run] at start
    cases start (Nat.le_trans stays behind) with
    | ok _ ahead₁ given₁ => exact (next a).same ahead₁ given₁ stays

/-- Two loops that may go on as long as there are tokens. -/
theorem whileTokens {loop : Nat → Reading α} {loop' : Nat → Reading β} (settles : Settles loop)
    (settles' : Settles loop') (rounds : ∀ n, Local p q image (loop n) (loop' n)) :
    Local p q image (get >>= fun r => loop r.rest.length)
      (get >>= fun r => loop' r.rest.length) := by
  refine ⟨.bind .get fun r => (rounds _).forward, fun ahead given stays => ?_⟩
  -- both loops as ones with a number of rounds that is enough for both
  have first : (loop (p.before ahead given).rest.length).run (p.before ahead given) =
      (loop ((p.before ahead given).rest.length + (q.before ahead given).rest.length)).run
        (p.before ahead given) := (settles.run_eq (Nat.le_refl _) (Nat.le_add_right _ _)).symm
  have second : (loop' (q.before ahead given).rest.length).run (q.before ahead given) =
      (loop' ((p.before ahead given).rest.length + (q.before ahead given).rest.length)).run
        (q.before ahead given) := (settles'.run_eq (Nat.le_refl _) (Nat.le_add_left _ _)).symm
  have same := (rounds ((p.before ahead given).rest.length +
    (q.before ahead given).rest.length)).same ahead given
  unfold attempt at same
  rw [← first, ← second] at same
  exact same stays

section Rules

variable {p q : TokenReader} {level : Level} {sub : Reading Subtree} {entries : Nat}
  {renumbered : Nat → Nat}

/-- The rules look at no numbers, so the numbers of the left operand may be any. -/
theorem chainFrom (h : p.SeesSame q) (mem : level ∈ levels)
    (operand : Local p q (Subtree.mapIds renumbered) sub sub) (bound : Nat) (left : Subtree) :
    Local p q (Subtree.mapIds renumbered) (Reading.chainFrom level sub bound left)
      (Reading.chainFrom level sub bound (left.mapIds renumbered)) := by
  induction bound generalizing left with
  | zero => exact .pure left
  | succ bound ih =>
    refine .bind (.accept? h _) fun o => ?_
    cases o with
    | none => exact .pure left
    | some operator =>
      refine .bind operand fun right => .bind (.joinHeights _ _ _) fun height => ?_
      have rest := ih ⟨level.node left.expr operator right.expr, height⟩
      rw [Subtree.mapIds, ← Expr.node_mapIds mem] at rest
      exact rest

theorem chain (h : p.SeesSame q) (mem : level ∈ levels)
    (operand : Local p q (Subtree.mapIds renumbered) sub sub) :
    Local p q (Subtree.mapIds renumbered) (Reading.chain level sub) (Reading.chain level sub) :=
  operand.bind fun first => .whileTokens (settles_chainFrom operand.forward first)
    (settles_chainFrom operand.forward _) fun bound => .chainFrom h mem operand bound first

theorem climb (h : p.SeesSame q) (operand : Local p q (Subtree.mapIds renumbered) sub sub)
    {ls : List Level} (mem : ∀ level ∈ ls, level ∈ levels) :
    Local p q (Subtree.mapIds renumbered) (Reading.climb ls sub) (Reading.climb ls sub) := by
  induction ls with
  | nil => exact operand
  | cons level tighter ih =>
    rw [List.forall_mem_cons] at mem
    exact (ih mem.2).chain h mem.1

theorem propertiesFrom (h : p.SeesSame q) (bound : Nat) (object : Subtree) :
    Local p q (Subtree.mapIds renumbered) (Reading.propertiesFrom bound object)
      (Reading.propertiesFrom bound (object.mapIds renumbered)) := by
  induction bound generalizing object with
  | zero => exact .pure object
  | succ bound ih =>
    refine .bind (.accept? h _) fun o => ?_
    cases o with
    | none => exact .pure object
    | some dot =>
      refine .bind (.accept? h _) fun o => ?_
      cases o with
      | none => exact .failHere h _
      | some name => exact .bind (.joinHeights _ _ _) fun height => ih _

theorem group (h : p.SeesSame q) (nested : Local p q (Subtree.mapIds renumbered) sub sub)
    (opening : Token) : Local p q (Subtree.mapIds renumbered) (Reading.group sub opening)
      (Reading.group sub opening) := by
  refine .bind nested fun inner => .bind (.accept? h _) fun o => ?_
  cases o with
  | none => exact .failHere h _
  | some closing => exact .bind (.joinHeights _ _ _) fun height => .pure _

/-- Here numbers are given out, by each reader its own. -/
theorem primary (h : p.SeesSame q)
    (nested : Local p q (Subtree.mapIds (renumber p q)) sub sub) :
    Local p q (Subtree.mapIds (renumber p q)) (Reading.primary sub) (Reading.primary sub) := by
  refine ⟨nested.forward.primary, fun ahead given stays => ?_⟩
  obtain ⟨hp, hq⟩ | ⟨t, ts, us, hp, hq, taken⟩ := h.next_before ahead given
  · rw [run_primary_nil hp, run_primary_nil hq, h.current_before]
    exact .error _ ahead given
  · obtain ⟨v, is⟩ | is | is | ⟨literal, identifier, paren⟩ := primary_cases t.kind
    · rw [attempt_eq_ok_iff.2 (run_primary_literal hp is)] at stays
      obtain ⟨left, rfl, rfl⟩ := taken stays
      rw [run_primary_literal hp is, run_primary_literal hq is]
      exact .ok (⟨.literal v, 1⟩ : Subtree) left given
    · rw [attempt_eq_ok_iff.2 (run_primary_identifier hp is)] at stays
      obtain ⟨left, rfl, rfl⟩ := taken stays
      rw [run_primary_identifier hp is, run_primary_identifier hq is]
      have numbered : SameOutcome p q (Subtree.mapIds (renumber p q))
          (.ok ⟨.reference (p.nextId + given) t, 1⟩ (p.before left (given + 1)))
          (.ok ⟨.reference (renumber p q (p.nextId + given)) t, 1⟩ (q.before left (given + 1))) :=
        .ok (⟨.reference (p.nextId + given) t, 1⟩ : Subtree) left (given + 1)
      rw [renumber_given] at numbered
      exact numbered
    · have inside := nested.group h t
      have forward := (inside.forward { p.before ahead given with rest := ts }).suffix.length_le
      unfold attempt at stays forward
      rw [run_primary_group hp is] at stays
      obtain ⟨left, rfl, rfl⟩ := taken (Nat.le_trans stays forward)
      rw [run_primary_group hp is, run_primary_group hq is]
      exact inside.same left given stays
    · rw [run_primary_other hp literal identifier paren,
        run_primary_other hq literal identifier paren]
      exact .error _ ahead given

theorem operand_succ (h : p.SeesSame q)
    (assignment : Local p q (Subtree.mapIds (renumber p q)) (assignment entries)
      (assignment entries))
    (operand : Local p q (Subtree.mapIds (renumber p q)) (operand entries) (operand entries)) :
    Local p q (Subtree.mapIds (renumber p q)) (Reading.operand (entries + 1))
      (Reading.operand (entries + 1)) := by
  refine .bind (.accept? h _) fun o => ?_
  cases o with
  | none =>
    exact .bind (assignment.primary h) fun object =>
      .whileTokens (settles_propertiesFrom object) (settles_propertiesFrom _) fun bound =>
        .propertiesFrom h bound object
  | some operator =>
    exact .bind operand fun right => .bind (.joinHeights _ _ _) fun height => .pure _

theorem assignment_succ (h : p.SeesSame q)
    (assignment : Local p q (Subtree.mapIds (renumber p q)) (assignment entries)
      (assignment entries))
    (operand : Local p q (Subtree.mapIds (renumber p q)) (operand entries) (operand entries)) :
    Local p q (Subtree.mapIds (renumber p q)) (Reading.assignment (entries + 1))
      (Reading.assignment (entries + 1)) := by
  refine .bind (operand.climb h fun _ mem => mem) fun target => .bind (.accept? h _) fun o => ?_
  cases o with
  | none => exact .pure target
  | some equals =>
    refine .bind assignment fun value => ?_
    have image := Expr.assignTo?_mapIds (f := renumber p q) target.expr value.expr
    simp only [Subtree.mapIds, image]
    cases assignTo? target.expr value.expr with
    | none => exact .throw _
    | some e => exact .bind (.joinHeights _ _ _) fun height => .pure _

theorem rules (h : p.SeesSame q) (entries : Nat) :
    Local p q (Subtree.mapIds (renumber p q)) (assignment entries) (assignment entries) ∧
      Local p q (Subtree.mapIds (renumber p q)) (operand entries) (operand entries) := by
  induction entries with
  | zero => exact ⟨.failHere h _, .failHere h _⟩
  | succ entries ih => exact ⟨.assignment_succ h ih.1 ih.2, .operand_succ h ih.1 ih.2⟩

theorem expression (h : p.SeesSame q) :
    Local p q (Expr.mapIds (renumber p q)) expression expression := by
  have rule : Local p q (Expr.mapIds (renumber p q))
      (Reading.assignment maxNesting >>= fun t => Pure.pure t.expr)
      (Reading.assignment maxNesting >>= fun t => Pure.pure t.expr) :=
    (rules h maxNesting).1.bind fun t => .pure t.expr
  exact rule

end Rules

end Local

end ScopedExpr
