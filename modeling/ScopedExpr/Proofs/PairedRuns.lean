import ScopedExpr.Evaluation

/-!
# Runs in pairs

Two evaluations of a tree, in two sessions and by two ways of access, go the same way as
long as the sessions stay related: it is enough that related sessions read the same at
every reference of the tree and stay related when an assignment of the tree writes. A
single run is a run paired with itself.
-/

namespace ScopedExpr

namespace Expr

def assignments : Expr → List (Nat × Token)
  | literal _ | reference _ _ => []
  | grouping e => e.assignments
  | assign id name value => (id, name) :: value.assignments
  | get object _ => object.assignments
  | set object _ value => object.assignments ++ value.assignments
  | unary _ operand => operand.assignments
  | binary left _ right | logical left _ right => left.assignments ++ right.assignments

theorem assignments_sublist (e : Expr) : e.assignments.Sublist e.references := by
  induction e with
  | literal => exact .slnil
  | reference => exact List.nil_sublist _
  | grouping e ih | get e _ ih | unary _ e ih => exact ih
  | assign id name value ih => exact ih.cons_cons _
  | set a _ b iha ihb | binary a _ b iha ihb | logical a _ b iha ihb => exact iha.append ihb

end Expr

/-- In related sessions, two computations have the same result and leave related
sessions. -/
def Evaluating.Paired {α : Type} (R : Session → Session → Prop) (x y : Evaluating α) : Prop :=
  ∀ s t, R s t →
    match x.run s with
    | .ok a s' => ∃ t', y.run t = .ok a t' ∧ R s' t'
    | .error err s' => ∃ t', y.run t = .error err t' ∧ R s' t'

namespace Evaluating.Paired

variable {α β : Type} {R : Session → Session → Prop} {x y : Evaluating α}
  {f g : α → Evaluating β} {a b : Access} {id : Nat} {name : Token}

theorem ofExcept (result : Except EvalError α) :
    Paired R (Evaluating.ofExcept result) (Evaluating.ofExcept result) := by
  intro s t related
  cases result with
  | ok a => exact ⟨t, rfl, related⟩
  | error err => exact ⟨t, rfl, related⟩

theorem pure (a : α) : Paired R (Pure.pure a) (Pure.pure a) := ofExcept (.ok a)

theorem throw (err : EvalError) :
    Paired R (MonadExcept.throw err : Evaluating α) (MonadExcept.throw err) :=
  ofExcept (.error err)

theorem bind (first : Paired R x y) (next : ∀ a, Paired R (f a) (g a)) :
    Paired R (x >>= f) (y >>= g) := by
  intro s t related
  have start := first s t related
  rw [EStateM.run_bind, EStateM.run_bind]
  cases hx : x.run s with
  | ok a s' =>
    rw [hx] at start
    obtain ⟨t', same, related'⟩ := start
    rw [same]
    exact next a s' t' related'
  | error err s' =>
    rw [hx] at start
    obtain ⟨t', same, related'⟩ := start
    rw [same]
    exact ⟨t', rfl, related'⟩

theorem read (same : ∀ s t, R s t → a.read s id name = b.read t id name) :
    Paired R (Evaluating.read a id name) (Evaluating.read b id name) := by
  intro s t related
  rw [run_read, run_read, ← same s t related]
  exact ofExcept _ s t related

theorem of_runs
    (same : ∀ s t, R s t →
      (∃ err s' t', x.run s = .error err s' ∧ y.run t = .error err t' ∧ R s' t') ∨
      ∃ a s' t', x.run s = .ok a s' ∧ y.run t = .ok a t' ∧ R s' t') : Paired R x y := by
  intro s t related
  obtain ⟨err, s', t', failed, failed', related'⟩ | ⟨a, s', t', done, done', related'⟩ :=
    same s t related
  · rw [failed]
    exact ⟨t', failed', related'⟩
  · rw [done]
    exact ⟨t', done', related'⟩

end Evaluating.Paired

namespace Expr

variable {R : Session → Session → Prop} {a b : Access} {e l r : Expr}

/-- Two ways of access go together at the references of a tree. -/
structure Together (R : Session → Session → Prop) (a b : Access) (e : Expr) : Prop where
  reads : ∀ id name, (id, name) ∈ e.references →
    Evaluating.Paired R (Evaluating.read a id name) (Evaluating.read b id name)
  writes : ∀ id name, (id, name) ∈ e.assignments → ∀ v,
    Evaluating.Paired R (a.write id name v) (b.write id name v)

theorem Together.two (h : e.Together R a b)
    (references : e.references = l.references ++ r.references)
    (assignments : e.assignments = l.assignments ++ r.assignments) :
    l.Together R a b ∧ r.Together R a b := by
  refine ⟨⟨fun id name mem => ?_, fun id name mem => ?_⟩,
    ⟨fun id name mem => ?_, fun id name mem => ?_⟩⟩
  · exact h.reads id name (references ▸ List.mem_append_left _ mem)
  · exact h.writes id name (assignments ▸ List.mem_append_left _ mem)
  · exact h.reads id name (references ▸ List.mem_append_right _ mem)
  · exact h.writes id name (assignments ▸ List.mem_append_right _ mem)

/-- Evaluation keeps a pair of sessions together when reading and writing do. -/
theorem paired_evaluate (h : e.Together R a b) :
    Evaluating.Paired R (e.evaluate a) (e.evaluate b) := by
  induction e with
  | literal v => exact .pure v
  | grouping e ih => exact ih ⟨h.reads, h.writes⟩
  | reference id name => exact h.reads id name (List.mem_singleton_self _)
  | assign id name value ih =>
    have inner : value.Together R a b :=
      ⟨fun k n mem => h.reads k n (List.mem_cons_of_mem _ mem),
        fun k n mem => h.writes k n (List.mem_cons_of_mem _ mem)⟩
    refine (ih inner).bind fun v => ?_
    exact (h.writes id name List.mem_cons_self v).bind fun _ => .pure v
  | get object name ih => exact (ih ⟨h.reads, h.writes⟩).bind fun _ => .throw _
  | set object name value ih _ =>
    obtain ⟨first, -⟩ := h.two (l := object) (r := value) rfl rfl
    exact (ih first).bind fun _ => .throw _
  | unary operator operand ih => exact (ih ⟨h.reads, h.writes⟩).bind fun _ => .ofExcept _
  | binary left operator right ihl ihr =>
    obtain ⟨first, second⟩ := h.two (l := left) (r := right) rfl rfl
    refine (ihl first).bind fun v => ?_
    exact (ihr second).bind fun _ => .ofExcept _
  | logical left operator right ihl ihr =>
    obtain ⟨first, second⟩ := h.two (l := left) (r := right) rfl rfl
    refine (ihl first).bind fun v => ?_
    by_cases decides : decidesLogical operator v
    · simp only [decides, if_true]
      exact .pure v
    · simp only [decides]
      exact ihr second

end Expr

theorem Session.evaluate_of_together {R : Session → Session → Prop} {a b : Access} {e : Expr}
    {s t : Session} (h : e.Together R a b) (related : R s t) :
    (s.evaluate a e).1 = (t.evaluate b e).1 ∧ R (s.evaluate a e).2 (t.evaluate b e).2 := by
  have both := Expr.paired_evaluate h s t related
  simp only [Session.evaluate]
  cases run : (e.evaluate a).run s with
  | ok v s' =>
    rw [run] at both
    obtain ⟨t', same, related'⟩ := both
    rw [same]
    exact ⟨rfl, related'⟩
  | error err s' =>
    rw [run] at both
    obtain ⟨t', same, related'⟩ := both
    rw [same]
    exact ⟨rfl, related'⟩

end ScopedExpr
