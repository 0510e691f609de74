import ScopedExpr.Diagnostic
import ScopedExpr.Proofs.ScopeColumns

/-!
# Hops along a chain

The links of a tree lead from a scope outward, one at a time, until a scope without an
enclosing one. A distance is a number of such hops: within the chain it leads to the one scope
that so many links reach, past its end to an internal fault that tells how many hops there
were. An operation that fails leaves the tree as it was.
-/

namespace ScopedExpr

namespace ScopeTree

/-- So many links lead outward from one scope to another. -/
inductive Hops (t : ScopeTree) : Nat → Nat → Nat → Prop where
  | here {i} : Hops t 0 i i
  | outward {d i p j} (up : t.enclosing? i = some p) (rest : Hops t d p j) : Hops t (d + 1) i j

def Links (t : ScopeTree) (i n : Nat) : Prop := ∃ r, t.Hops n i r ∧ t.enclosing? r = none

/-- The fault of a distance that leads past the end of a chain. -/
def pastRoot (links distance line : Nat) : EvalError :=
  .internal (.chainEnded links distance) (some line)

variable {t u : ScopeTree} {i j k n m d line : Nat} {name : String} {v : Value} {err : EvalError}

theorem diagnostic_pastRoot (n d line : Nat) : (pastRoot n d line).diagnostic =
    .internal (some line) s!"scope chain ended after {n} of {d} hops" := rfl

theorem hops_iff : t.Hops d i j ↔ (t.chain i)[d]? = some j := by
  constructor
  · intro hops
    induction hops with
    | here => rw [← List.head?_eq_getElem?, head?_chain]
    | outward up rest ih => rw [chain_of_some up, List.getElem?_cons_succ, ih]
  · intro place
    induction d generalizing i with
    | zero =>
      rw [← List.head?_eq_getElem?, head?_chain] at place
      cases place
      exact .here
    | succ d ih =>
      cases up : t.enclosing? i with
      | none =>
        rw [chain_of_none up] at place
        cases place
      | some p =>
        rw [chain_of_some up, List.getElem?_cons_succ] at place
        exact .outward up (ih place)

theorem Hops.unique (h : t.Hops d i j) (h' : t.Hops d i k) : j = k :=
  Option.some.inj ((hops_iff.1 h).symm.trans (hops_iff.1 h'))

theorem Hops.le (h : t.Hops d i j) : j ≤ i :=
  le_of_mem_chain (List.mem_of_getElem? (hops_iff.1 h))

theorem hops_add : t.Hops (m + n) i k ↔ ∃ j, t.Hops m i j ∧ t.Hops n j k := by
  constructor
  · intro hops
    induction m generalizing i with
    | zero => exact ⟨i, .here, Nat.zero_add n ▸ hops⟩
    | succ m ih =>
      rw [Nat.succ_add] at hops
      cases hops with
      | outward up rest =>
        obtain ⟨j, first, last⟩ := ih rest
        exact ⟨j, .outward up first, last⟩
  · rintro ⟨j, first, last⟩
    induction first with
    | here => exact (Nat.zero_add n).symm ▸ last
    | outward up rest ih => exact Nat.succ_add _ n ▸ .outward up (ih last)

theorem Hops.root_eq (h : t.Hops d i j) : t.root j = t.root i := by
  induction h with
  | here => rfl
  | outward up _ ih => rw [ih, root_of_some up]

theorem links_iff : t.Links i n ↔ (t.chain i).length = n + 1 := by
  constructor
  · rintro ⟨r, hops, top⟩
    induction hops with
    | here => rw [chain_of_none top, List.length_singleton]
    | outward up rest ih => rw [chain_of_some up, List.length_cons, ih top]
  · intro length
    have last := getLast?_chain t i
    rw [List.getLast?_eq_getElem?, length] at last
    exact ⟨t.root i, hops_iff.2 last, enclosing?_root t i⟩

/-- Every chain ends. -/
theorem exists_links (t : ScopeTree) (i : Nat) : ∃ n, t.Links i n := by
  obtain ⟨outer, chain⟩ := List.head?_eq_some_iff.1 (head?_chain t i)
  exact ⟨outer.length, links_iff.2 (by rw [chain, List.length_cons])⟩

theorem Links.hops_root (h : t.Links i n) : t.Hops n i (t.root i) := by
  obtain ⟨r, hops, top⟩ := h
  rwa [← hops.root_eq, root_of_none top]

theorem Links.exists_hops_iff (h : t.Links i n) : (∃ j, t.Hops d i j) ↔ d ≤ n := by
  have length := links_iff.1 h
  constructor
  · rintro ⟨j, hops⟩
    obtain ⟨inside, -⟩ := List.getElem?_eq_some_iff.1 (hops_iff.1 hops)
    omega
  · intro le
    exact ⟨_, hops_iff.2 (List.getElem?_eq_getElem (by omega))⟩

theorem ancestor_eq_ok_iff : t.ancestor i d line = .ok j ↔ t.Hops d i j := by
  rw [hops_iff, ancestor]
  cases (t.chain i)[d]? with
  | none => simp
  | some k => simp

theorem Links.ancestor_eq_error_iff (h : t.Links i n) :
    t.ancestor i d line = .error err ↔ n < d ∧ err = pastRoot n d line := by
  have within := h.exists_hops_iff (d := d)
  have length := links_iff.1 h
  simp only [hops_iff] at within
  rw [ancestor]
  cases place : (t.chain i)[d]? with
  | none =>
    have past : n < d := Nat.lt_of_not_le fun le => by simpa [place] using within.2 le
    simp [past, length, pastRoot, eq_comm]
  | some k =>
    have le : d ≤ n := within.1 ⟨k, place⟩
    simp [Nat.not_lt.2 le]

theorem Links.ancestor_of_lt (h : t.Links i n) (past : n < d) (line : Nat) :
    t.ancestor i d line = .error (pastRoot n d line) :=
  h.ancestor_eq_error_iff.2 ⟨past, rfl⟩

theorem Links.getAt_of_lt (h : t.Links i n) (past : n < d) (name : String) (line : Nat) :
    t.getAt i d name line = .error (pastRoot n d line) := by
  simp only [getAt, h.ancestor_of_lt past line]
  rfl

theorem Links.run_writeAt_of_lt (h : t.Links i n) (past : n < d) (name : String) (v : Value)
    (line : Nat) : (writeAt i d name v line).run t = .error (pastRoot n d line) t := by
  have ended : (t.chain i)[d]? = none := by
    rw [List.getElem?_eq_none_iff, links_iff.1 h]
    exact past
  rw [run_writeAt_of_chain_none ended, links_iff.1 h, Nat.add_sub_cancel]
  rfl

theorem getAt_of_unbound (h : t.Hops d i j) (free : (t.bindings j).find? name = none) :
    t.getAt i d name line = .error (.runtime (.undefinedVariable name) line) := by
  simp only [getAt, ancestor_eq_ok_iff.2 h, bind, Except.bind, free]

/-- What a read by distance can do. -/
theorem Links.cases_of_getAt (links : t.Links i n) (d : Nat) (name : String) (line : Nat) :
    (n < d ∧ t.getAt i d name line = .error (pastRoot n d line)) ∨
      ∃ j, t.Hops d i j ∧
        (((t.bindings j).find? name = none ∧
            t.getAt i d name line = .error (.runtime (.undefinedVariable name) line)) ∨
          ∃ v, (t.bindings j).find? name = some v ∧ t.getAt i d name line = .ok v) := by
  by_cases within : d ≤ n
  · obtain ⟨j, hops⟩ := links.exists_hops_iff.2 within
    refine .inr ⟨j, hops, ?_⟩
    cases bound : (t.bindings j).find? name with
    | none => exact .inl ⟨rfl, getAt_of_unbound hops bound⟩
    | some v => exact .inr ⟨v, rfl, getAt_of_chain (hops_iff.1 hops) bound⟩
  · have past := Nat.lt_of_not_le within
    exact .inl ⟨past, links.getAt_of_lt past name line⟩

/-- What a write by distance can do. -/
theorem Links.cases_of_writeAt (links : t.Links i n) (d : Nat) (name : String) (v : Value)
    (line : Nat) :
    (n < d ∧ (writeAt i d name v line).run t = .error (pastRoot n d line) t) ∨
      ∃ j, t.Hops d i j ∧ (writeAt i d name v line).run t = .ok () (t.define j name v) := by
  by_cases within : d ≤ n
  · obtain ⟨j, hops⟩ := links.exists_hops_iff.2 within
    exact .inr ⟨j, hops, run_writeAt_of_chain (hops_iff.1 hops) name v line⟩
  · have past := Nat.lt_of_not_le within
    exact .inl ⟨past, links.run_writeAt_of_lt past name v line⟩

theorem Links.getAt_eq_ok_iff (links : t.Links i n) : t.getAt i d name line = .ok v ↔
    ∃ j, t.Hops d i j ∧ (t.bindings j).find? name = some v := by
  constructor
  · intro read
    obtain ⟨-, failed⟩ | ⟨j, hops, ⟨-, failed⟩ | ⟨w, bound, got⟩⟩ :=
      links.cases_of_getAt d name line
    · cases failed.symm.trans read
    · cases failed.symm.trans read
    · cases got.symm.trans read
      exact ⟨j, hops, bound⟩
  · rintro ⟨j, hops, bound⟩
    exact getAt_of_chain (hops_iff.1 hops) bound

theorem Links.getAt_eq_pastRoot_iff (links : t.Links i n) :
    t.getAt i d name line = .error (pastRoot n d line) ↔ n < d := by
  constructor
  · intro failed
    obtain ⟨past, -⟩ | ⟨j, -, ⟨-, other⟩ | ⟨w, -, got⟩⟩ := links.cases_of_getAt d name line
    · exact past
    · cases other.symm.trans failed
    · cases got.symm.trans failed
  · intro past
    exact links.getAt_of_lt past name line

theorem Links.run_writeAt_eq_ok_iff (links : t.Links i n) :
    (writeAt i d name v line).run t = .ok () u ↔ ∃ j, t.Hops d i j ∧ u = t.define j name v := by
  constructor
  · intro wrote
    obtain ⟨-, failed⟩ | ⟨j, hops, done⟩ := links.cases_of_writeAt d name v line
    · cases failed.symm.trans wrote
    · cases done.symm.trans wrote
      exact ⟨j, hops, rfl⟩
  · rintro ⟨j, hops, rfl⟩
    exact run_writeAt_of_chain (hops_iff.1 hops) name v line

theorem Links.run_writeAt_eq_error_iff (links : t.Links i n) :
    (writeAt i d name v line).run t = .error err u ↔ n < d ∧ err = pastRoot n d line ∧ u = t := by
  constructor
  · intro failed
    obtain ⟨past, refused⟩ | ⟨j, -, done⟩ := links.cases_of_writeAt d name v line
    · cases refused.symm.trans failed
      exact ⟨past, rfl, rfl⟩
    · cases done.symm.trans failed
  · rintro ⟨past, rfl, rfl⟩
    exact links.run_writeAt_of_lt past name v line

theorem assignAt_eq_ok_iff :
    t.assignAt i d name v line = .ok u ↔ (writeAt i d name v line).run t = .ok () u := by
  unfold assignAt
  cases (writeAt i d name v line).run t <;> simp

theorem assignAt_eq_error_iff : t.assignAt i d name v line = .error err ↔
    ∃ u, (writeAt i d name v line).run t = .error err u := by
  unfold assignAt
  cases (writeAt i d name v line).run t <;> simp

/-- Access by distance from a scope with so many links: each distance within the chain leads to
one scope, which alone is read or written, and each other one to the same fault. -/
structure ExactAt (t : ScopeTree) (i n line : Nat) : Prop where
  ancestor_ok : ∀ d j, t.ancestor i d line = .ok j ↔ t.Hops d i j
  within : ∀ d, (∃ j, t.ancestor i d line = .ok j) ↔ d ≤ n
  ancestor_error : ∀ d err, t.ancestor i d line = .error err ↔ n < d ∧ err = pastRoot n d line
  getAt_ok : ∀ d name v, t.getAt i d name line = .ok v ↔
    ∃ j, t.ancestor i d line = .ok j ∧ (t.bindings j).find? name = some v
  getAt_past : ∀ d name, t.getAt i d name line = .error (pastRoot n d line) ↔ n < d
  assignAt_ok : ∀ d name v u, t.assignAt i d name v line = .ok u ↔
    ∃ j, t.ancestor i d line = .ok j ∧ u = t.define j name v
  assignAt_error : ∀ d name v err,
    t.assignAt i d name v line = .error err ↔ n < d ∧ err = pastRoot n d line
  writeAt_error : ∀ d name v err u,
    (writeAt i d name v line).run t = .error err u ↔ n < d ∧ err = pastRoot n d line ∧ u = t

theorem Links.exactAt (links : t.Links i n) (line : Nat) : t.ExactAt i n line where
  ancestor_ok d j := ancestor_eq_ok_iff
  within d := by simp only [ancestor_eq_ok_iff, links.exists_hops_iff]
  ancestor_error d err := links.ancestor_eq_error_iff
  getAt_ok d name v := by simp only [ancestor_eq_ok_iff, links.getAt_eq_ok_iff]
  getAt_past d name := links.getAt_eq_pastRoot_iff
  assignAt_ok d name v u := by
    rw [assignAt_eq_ok_iff, links.run_writeAt_eq_ok_iff]
    simp only [ancestor_eq_ok_iff]
  assignAt_error d name v err := by
    simp only [assignAt_eq_error_iff, links.run_writeAt_eq_error_iff, exists_and_left,
      exists_eq, and_true]
  writeAt_error d name v err u := links.run_writeAt_eq_error_iff

inductive Operation where
  | addRoot
  | addChild (i : Nat)
  | addCopy (i : Nat)
  | define (i : Nat) (name : String) (value : Value)
  | assign (i : Nat) (name : String) (value : Value)
  | assignAt (i distance : Nat) (name : String) (value : Value) (line : Nat)
  | get (i : Nat) (name : String) (line : Nat)
  | getAt (i distance : Nat) (name : String) (line : Nat)
  | ancestor (i distance line : Nat)

inductive Answer where
  | done
  | scope (i : Nat)
  | value (v : Value)

/-- A question to the scopes, which changes nothing. -/
def ask {α : Type} (question : ScopeTree → Except EvalError α) : Scoping α := do
  MonadExcept.ofExcept (question (← MonadState.get))

def perform : Operation → Scoping Answer
  | .addRoot => modifyGet fun t => (.scope t.size, t.addRoot)
  | .addChild i => modifyGet fun t => (.scope t.size, t.addChild i)
  | .addCopy i => modifyGet fun t => (.scope t.size, t.addCopy i)
  | .define i name value => modifyGet fun t => (.done, t.define i name value)
  | .assign i name value => modifyGet fun t => (.done, t.assign i name value)
  | .assignAt i distance name value line => do
    writeAt i distance name value line
    return .done
  | .get i name line => return .value (← ask fun t => t.get i name line)
  | .getAt i distance name line => return .value (← ask fun t => t.getAt i distance name line)
  | .ancestor i distance line => return .scope (← ask fun t => t.ancestor i distance line)

/-- The tree behind an operation, also behind one that fails. -/
def after (t : ScopeTree) (op : Operation) : ScopeTree :=
  match (perform op).run t with
  | .ok _ u => u
  | .error _ u => u

def behind (t : ScopeTree) (ops : List Operation) : ScopeTree := ops.foldl after t

/-- What an operation can end in. One that fails has not changed the tree. -/
inductive Performed (t : ScopeTree) : EStateM.Result EvalError ScopeTree Answer → Prop where
  | refused {e} : Performed t (.error e t)
  | told {answer} : Performed t (.ok answer t)
  | defined {answer w x value} : Performed t (.ok answer (t.define w x value))
  | added {answer bindings enclosing} : Performed t (.ok answer (t.add bindings enclosing))

theorem performed_ask {α : Type} (question : ScopeTree → Except EvalError α) (answer : α → Answer)
    (t : ScopeTree) : t.Performed ((do return answer (← ask question) : Scoping Answer).run t) := by
  rw [EStateM.run_bind, ask, EStateM.run_bind, EStateM.run_get]
  cases told : question t with
  | error err =>
    simp only [told]
    exact .refused
  | ok a =>
    simp only [told]
    exact .told

theorem performed (t : ScopeTree) (op : Operation) : t.Performed ((perform op).run t) := by
  cases op with
  | addRoot | addChild | addCopy => exact .added
  | define | assign => exact .defined
  | assignAt i d name v line =>
    obtain ⟨n, links⟩ := t.exists_links i
    rw [perform, EStateM.run_bind]
    obtain ⟨-, refused⟩ | ⟨j, -, done⟩ := links.cases_of_writeAt d name v line
    · rw [refused]
      exact .refused
    · rw [done]
      exact .defined
  | get | getAt | ancestor => exact performed_ask _ _ t

theorem perform_of_error {op : Operation} (failed : (perform op).run t = .error err u) : u = t := by
  have performed := t.performed op
  rw [failed] at performed
  cases performed
  rfl

end ScopeTree

namespace Session

open ScopeTree

variable {s s' : Session} {id d n : Nat} {name : Token} {v : Value} {err : EvalError}

theorem evaluate_assign_literal_of_ok {u : ScopeTree} (noted : s.locals.find? id = some d)
    (done : (writeAt s.active d name.lexeme v name.line).run s.scopes = .ok () u) :
    s.evaluate .resolved (.assign id name (.literal v)) = (.ok v, { s with scopes := u }) := by
  rw [evaluate_eq_ok_iff, Expr.evaluate, Expr.evaluate, pure_bind, EStateM.run_bind,
    Access.run_resolved_write_of_ok noted done]
  rfl

theorem evaluate_assign_literal_of_error (noted : s.locals.find? id = some d)
    (failed : (writeAt s.active d name.lexeme v name.line).run s.scopes = .error err s.scopes) :
    s.evaluate .resolved (.assign id name (.literal v)) = (.error err, s) := by
  rw [evaluate_eq_error_iff, Expr.evaluate, Expr.evaluate, pure_bind, EStateM.run_bind,
    Access.run_resolved_write_of_error noted failed]

/-- A literal is assigned at a distance, or the distance is past the end of the chain. -/
theorem evaluate_assign_literal_eq_error_iff (links : s.scopes.Links s.active n)
    (noted : s.locals.find? id = some d) :
    s.evaluate .resolved (.assign id name (.literal v)) = (.error err, s') ↔
      n < d ∧ err = pastRoot n d name.line ∧ s' = s := by
  constructor
  · intro failed
    obtain ⟨past, refused⟩ | ⟨j, -, done⟩ := links.cases_of_writeAt d name.lexeme v name.line
    · cases (evaluate_assign_literal_of_error noted refused).symm.trans failed
      exact ⟨past, rfl, rfl⟩
    · cases (evaluate_assign_literal_of_ok noted done).symm.trans failed
  · rintro ⟨past, rfl, rfl⟩
    exact evaluate_assign_literal_of_error noted
      (links.run_writeAt_of_lt past name.lexeme v name.line)

end Session

/-- Distances on a chain with so many links are exact: they lead to the scope at the distance or
past the end, in two walks as in one. Whatever fails leaves all bindings as they were, also the
assignment of a literal whose distance is past the end. -/
theorem exact_hops {t : ScopeTree} {i n : Nat} (links : t.Links i n) :
    (∀ line, t.ExactAt i n line) ∧
    (∀ d line, (ScopeTree.pastRoot n d line).diagnostic =
      .internal (some line) s!"scope chain ended after {n} of {d} hops") ∧
    (∀ d₁ d₂ line, d₁ + d₂ ≤ n → ∃ j k, t.ancestor i d₁ line = .ok j ∧
      t.ancestor j d₂ line = .ok k ∧ t.ancestor i (d₁ + d₂) line = .ok k) ∧
    (∀ op err u, (ScopeTree.perform op).run t = .error err u → u = t) ∧
    ∀ (s s' : Session) id name d v err, s.scopes = t → s.active = i →
      s.locals.find? id = some d →
      (s.evaluate .resolved (.assign id name (.literal v)) = (.error err, s') ↔
        n < d ∧ err = ScopeTree.pastRoot n d name.line ∧ s' = s) := by
  refine ⟨links.exactAt, ScopeTree.diagnostic_pastRoot n, ?_,
    fun op err u => ScopeTree.perform_of_error, ?_⟩
  · intro d₁ d₂ line within
    obtain ⟨k, whole⟩ := links.exists_hops_iff.2 within
    obtain ⟨j, first, last⟩ := ScopeTree.hops_add.1 whole
    simp only [ScopeTree.ancestor_eq_ok_iff]
    exact ⟨j, k, first, last, whole⟩
  · rintro s s' id name d v err rfl rfl noted
    exact Session.evaluate_assign_literal_eq_error_iff links noted

def nestedScopes : ScopeTree := (ScopeTree.empty.addRoot.addChild 0).addChild 1

/-- The innermost scope is active, and a reference has a distance past the root. -/
def pastRootSession : Session := ⟨nestedScopes, 0, 2, Table.empty.insert 0 3⟩

theorem nestedScopes_exact :
    nestedScopes.Links 2 2 ∧ nestedScopes.ExactAt 2 2 7 ∧
      (∃ j k, nestedScopes.ancestor 2 1 7 = .ok j ∧ nestedScopes.ancestor j 1 7 = .ok k ∧
        nestedScopes.ancestor 2 2 7 = .ok k) ∧
      (ScopeTree.perform (.assignAt 2 3 "x" .none 7)).run nestedScopes =
        .error (ScopeTree.pastRoot 2 3 7) nestedScopes ∧
      pastRootSession.evaluate .resolved (.assign 0 ⟨.identifier, "x", 7⟩ (.literal .none)) =
        (.error (ScopeTree.pastRoot 2 3 7), pastRootSession) := by
  have links : nestedScopes.Links 2 2 := ⟨0, .outward rfl (.outward rfl .here), rfl⟩
  obtain ⟨exact, -, twice, -, literal⟩ := exact_hops links
  have written := ((exact 7).writeAt_error 3 "x" .none _ _).2 ⟨by decide, rfl, rfl⟩
  have refused : (ScopeTree.perform (.assignAt 2 3 "x" .none 7)).run nestedScopes =
      .error (ScopeTree.pastRoot 2 3 7) nestedScopes := by
    rw [ScopeTree.perform, EStateM.run_bind, written]
  exact ⟨links, exact 7, twice 1 1 7 (by decide), refused,
    (literal pastRootSession _ 0 _ 3 .none _ rfl rfl rfl).2 ⟨by decide, rfl, rfl⟩⟩

end ScopedExpr
