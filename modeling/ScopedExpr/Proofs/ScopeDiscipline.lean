import ScopedExpr.Proofs.BlockNesting
import ScopedExpr.Proofs.EvaluationFootprint

/-!
# The discipline of scopes

A session goes through any operations, also such that fail: blocks are opened and closed,
names defined, distances noted and trees evaluated. Its chain has one scope for each open
block, and the globals at its end. Behind a block and the operations in it the scopes are
those from before, with all the bindings that no assignment in the block has written.
-/

namespace ScopedExpr

namespace Session

inductive Operation where
  | openBlock
  | closeBlock
  | define (name : String) (value : Value)
  | noteLocal (id distance : Nat)
  | evaluate (e : Expr)

namespace Operation

def mark : Operation → BlockMark
  | openBlock => .opening
  | closeBlock => .closing
  | _ => .neutral

def targets : Operation → List String
  | evaluate e => e.targets
  | _ => []

end Operation

/-- The session behind an operation, also behind one that fails. -/
def after (s : Session) : Operation → Session
  | .openBlock => s.openBlock
  | .closeBlock =>
    match closeBlock.run s with
    | .ok _ s' => s'
    | .error _ s' => s'
  | .define name value => s.define name value
  | .noteLocal id distance => s.noteLocal id distance
  | .evaluate e => (s.evaluate .resolved e).2

def afterAll (s : Session) (ops : List Operation) : Session := ops.foldl after s

def opened (ops : List Operation) : Nat := (ops.map Operation.mark).count .opening

def closes (s : Session) : Operation → Bool
  | .closeBlock =>
    match closeBlock.run s with
    | .ok _ _ => true
    | .error _ _ => false
  | _ => false

/-- The number of operations that close a block, of those that try. -/
def closed (s : Session) : List Operation → Nat
  | [] => 0
  | op :: ops => (s.closes op).toNat + (s.after op).closed ops

variable {s s' t : Session} {targets : List String} {n m : Nat} {x : String}

@[simp] theorem afterAll_cons (s : Session) (op : Operation) (ops : List Operation) :
    s.afterAll (op :: ops) = (s.after op).afterAll ops := rfl

theorem afterAll_append (s : Session) (a b : List Operation) :
    s.afterAll (a ++ b) = (s.afterAll a).afterAll b := List.foldl_append

theorem chain_eq_cons (s : Session) : ∃ outer, s.chain = s.active :: outer :=
  List.head?_eq_some_iff.1 (ScopeTree.head?_chain s.scopes s.active)

/-- A block is closed, or none can be, and then nothing has changed. -/
theorem closeBlock_cases (s : Session) :
    (∃ s', closeBlock.run s = .ok () s' ∧ s.after .closeBlock = s' ∧
      s.closes .closeBlock = true) ∨
    ∃ e, closeBlock.run s = .error e s ∧ s.after .closeBlock = s ∧
      s.closes .closeBlock = false := by
  cases done : closeBlock.run s with
  | ok _ s' => exact .inl ⟨s', rfl, by rw [after, done], by rw [closes, done]⟩
  | error e s' =>
    obtain ⟨-, -, rfl⟩ := run_closeBlock_eq_error_iff.1 done
    exact .inr ⟨e, rfl, by rw [after, done], by rw [closes, done]⟩

theorem after_of_closeBlock (h : closeBlock.run s = .ok () s') : s.after .closeBlock = s' := by
  rw [after, h]

theorem after_of_closeBlock_error {e : EvalError} (h : closeBlock.run s = .error e s') :
    s.after .closeBlock = s' := by
  rw [after, h]

theorem chain_of_closeBlock (h : closeBlock.run s = .ok () s') :
    s.chain = s.active :: s'.chain := by
  obtain ⟨outer, up, rfl⟩ := run_closeBlock_eq_ok_iff.1 h
  exact ScopeTree.chain_of_some up

theorem Rooted.chain_openBlock (h : s.Rooted) :
    s.openBlock.chain = s.scopes.size :: s.chain :=
  ScopeTree.chain_addChild s.scopes h.inside

theorem chain_define (s : Session) (x : String) (v : Value) : (s.define x v).chain = s.chain :=
  ScopeTree.chain_define s.scopes s.active s.active x v

/-- Only the globals have no scope around them. -/
theorem Rooted.enclosing?_eq_none_iff (h : s.Rooted) :
    s.scopes.enclosing? s.active = none ↔ s.active = s.globals := by
  constructor
  · intro top
    rw [← h.globals, ScopeTree.root_of_none top]
  · intro atGlobals
    rw [atGlobals, ← h.globals]
    exact ScopeTree.enclosing?_root s.scopes s.active

theorem Rooted.after (h : s.Rooted) (op : Operation) : (s.after op).Rooted := by
  cases op with
  | openBlock => exact h.openBlock
  | closeBlock =>
    obtain ⟨s', done, behind, -⟩ | ⟨e, -, behind, -⟩ := s.closeBlock_cases
    · rw [behind]
      exact h.closeBlock done
    · rw [behind]
      exact h
  | define x v => exact h.define x v
  | noteLocal id distance => exact ⟨h.inside, h.globals⟩
  | evaluate e => exact h.of_frame (s.frame_evaluate e)

theorem Rooted.afterAll (h : s.Rooted) (ops : List Operation) : (s.afterAll ops).Rooted := by
  induction ops generalizing s with
  | nil => exact h
  | cons op ops ih => exact ih (h.after op)

theorem globals_after (s : Session) (op : Operation) : (s.after op).globals = s.globals := by
  cases op with
  | openBlock => rfl
  | closeBlock =>
    obtain ⟨s', done, behind, -⟩ | ⟨e, -, behind, -⟩ := s.closeBlock_cases
    · obtain ⟨outer, -, rfl⟩ := run_closeBlock_eq_ok_iff.1 done
      rw [behind]
    · rw [behind]
  | define x v => rfl
  | noteLocal id distance => rfl
  | evaluate e => exact (s.frame_evaluate e).globals

theorem globals_afterAll (s : Session) (ops : List Operation) :
    (s.afterAll ops).globals = s.globals := by
  induction ops generalizing s with
  | nil => rfl
  | cons op ops ih => exact (ih (s.after op)).trans (s.globals_after op)

/-- An operation makes the chain longer by the block that it opens, and shorter by the one
that it closes. -/
theorem Rooted.length_chain_after (h : s.Rooted) (op : Operation) :
    (s.after op).chain.length + (s.closes op).toNat = s.chain.length + opened [op] := by
  cases op with
  | openBlock =>
    change s.openBlock.chain.length + 0 = s.chain.length + 1
    rw [h.chain_openBlock, List.length_cons]
  | closeBlock =>
    obtain ⟨s', done, behind, closes⟩ | ⟨e, -, behind, closes⟩ := s.closeBlock_cases
    · rw [behind, closes, chain_of_closeBlock done]
      rfl
    · rw [behind, closes]
      rfl
  | define x v =>
    change (s.define x v).chain.length + 0 = s.chain.length + 0
    rw [chain_define]
  | noteLocal id distance => rfl
  | evaluate e =>
    change (s.evaluate .resolved e).2.chain.length + 0 = s.chain.length + 0
    rw [(s.frame_evaluate e).chain]

theorem opened_cons (op : Operation) (ops : List Operation) :
    opened (op :: ops) = opened [op] + opened ops := by
  simp only [opened, List.map_cons, ← List.count_append, List.map_nil, List.singleton_append]

theorem Rooted.length_chain_afterAll (h : s.Rooted) (ops : List Operation) :
    (s.afterAll ops).chain.length + s.closed ops = s.chain.length + opened ops := by
  induction ops generalizing s with
  | nil => rfl
  | cons op ops ih =>
    have first := h.length_chain_after op
    have rest := ih (h.after op)
    rw [afterAll_cons, closed, opened_cons]
    omega

/-- A session stands within `n` blocks that were opened since another session: the chain of
that one is the outer part of its own, and of the scopes from then only the bindings of some
names are new. -/
structure Within (t : Session) (targets : List String) (n : Nat) (s : Session) : Prop where
  chain : ∃ inner, s.chain = inner ++ t.chain ∧ inner.length = n ∧ ∀ j ∈ inner, t.scopes.size ≤ j
  rooted : s.Rooted
  size : t.scopes.size ≤ s.scopes.size
  kept : ∀ j < t.scopes.size, ∀ x ∉ targets,
    (s.scopes.bindings j).find? x = (t.scopes.bindings j).find? x

namespace Within

theorem refl (rooted : t.Rooted) (targets : List String) : t.Within targets 0 t where
  chain := ⟨[], rfl, rfl, by simp⟩
  rooted := rooted
  size := Nat.le_refl _
  kept _ _ _ _ := rfl

theorem openBlock (h : t.Within targets n s) : t.Within targets (n + 1) s.openBlock where
  chain := by
    obtain ⟨inner, chain, length, new⟩ := h.chain
    refine ⟨s.scopes.size :: inner, ?_, by rw [List.length_cons, length], ?_⟩
    · rw [h.rooted.chain_openBlock, chain, List.cons_append]
    · intro j mem
      obtain rfl | mem := List.mem_cons.1 mem
      · exact h.size
      · exact new j mem
  rooted := h.rooted.openBlock
  size := by
    have grown : s.openBlock.scopes.size = s.scopes.size + 1 := ScopeTree.size_add _ _ _
    have before := h.size
    omega
  kept j old x free := by
    have inside : j < s.scopes.size := Nat.lt_of_lt_of_le old h.size
    have same : s.openBlock.scopes.bindings j = s.scopes.bindings j :=
      ScopeTree.bindings_add_of_lt _ _ _ inside
    rw [same]
    exact h.kept j old x free

theorem closeBlock (h : t.Within targets (n + 1) s) :
    ∃ s', Session.closeBlock.run s = .ok () s' ∧ t.Within targets n s' := by
  obtain ⟨inner, chain, length, new⟩ := h.chain
  obtain ⟨s', done, -⟩ | ⟨e, refused, -⟩ := s.closeBlock_cases
  · have whole := (chain_of_closeBlock done).symm.trans chain
    obtain ⟨outer, -, rfl⟩ := run_closeBlock_eq_ok_iff.1 done
    refine ⟨_, done, ?_, h.rooted.closeBlock done, h.size, h.kept⟩
    cases inner with
    | nil => cases length
    | cons j inner =>
      refine ⟨inner, (List.cons.inj whole).2, Nat.succ.inj length, fun k mem => ?_⟩
      exact new k (List.mem_cons_of_mem j mem)
  · -- The chain of a session that cannot close a block has one scope, and this one has two.
    obtain ⟨top, -⟩ := run_closeBlock_eq_error_iff.1 refused
    have single : s.chain = [s.active] := ScopeTree.chain_of_none top
    obtain ⟨outer, base⟩ := t.chain_eq_cons
    have two := congrArg List.length (single.symm.trans chain)
    simp only [List.length_append, List.length_cons, List.length_nil, length, base] at two
    omega

/-- Within a block a name is defined in a scope that was not there before. -/
theorem define (h : t.Within targets (n + 1) s) (x : String) (v : Value) :
    t.Within targets (n + 1) (s.define x v) where
  chain := by
    rw [chain_define]
    exact h.chain
  rooted := h.rooted.define x v
  size := by
    have same : (s.define x v).scopes.size = s.scopes.size := ScopeTree.size_define _ _ _ _
    rw [same]
    exact h.size
  kept j old y free := by
    obtain ⟨inner, chain, length, new⟩ := h.chain
    obtain ⟨outer, first⟩ := s.chain_eq_cons
    have fresh : t.scopes.size ≤ s.active := by
      cases inner with
      | nil => cases length
      | cons k inner =>
        rw [(List.cons.inj (first.symm.trans chain)).1]
        exact new k List.mem_cons_self
    have apart : j ≠ s.active := by omega
    have same : (s.define x v).scopes.bindings j = s.scopes.bindings j :=
      ScopeTree.bindings_define_of_ne _ _ _ apart
    rw [same]
    exact h.kept j old y free

theorem of_frame (h : t.Within targets n s) (frame : s.Frame targets s') :
    t.Within targets n s' where
  chain := by
    rw [frame.chain]
    exact h.chain
  rooted := h.rooted.of_frame frame
  size := by
    rw [frame.size]
    exact h.size
  kept j old x free := (frame.unwritten j x free).trans (h.kept j old x free)

/-- One operation within a block. -/
theorem after (h : t.Within targets (n + 1) s) {op : Operation}
    (written : ∀ x ∈ op.targets, x ∈ targets) (counted : openBlocks? n [op.mark] = some m) :
    t.Within targets (m + 1) (s.after op) := by
  cases op with
  | openBlock =>
    obtain rfl : n + 1 = m := Option.some.inj counted
    exact h.openBlock
  | closeBlock =>
    cases n with
    | zero => cases counted
    | succ n =>
      obtain rfl : n = m := Option.some.inj counted
      obtain ⟨s', done, within⟩ := h.closeBlock
      rw [after_of_closeBlock done]
      exact within
  | define x v =>
    obtain rfl : n = m := Option.some.inj counted
    exact h.define x v
  | noteLocal id distance =>
    obtain rfl : n = m := Option.some.inj counted
    exact ⟨h.chain, ⟨h.rooted.inside, h.rooted.globals⟩, h.size, h.kept⟩
  | evaluate e =>
    obtain rfl : n = m := Option.some.inj counted
    have frame := s.frame_evaluate e
    refine h.of_frame ⟨frame.active, frame.globals, frame.locals, frame.size, frame.enclosing,
      frame.kept, fun j x free => frame.unwritten j x fun mem => free (written x mem)⟩

theorem afterAll {ops : List Operation} (h : t.Within targets (n + 1) s)
    (written : ∀ x ∈ ops.flatMap Operation.targets, x ∈ targets)
    (counted : openBlocks? n (ops.map Operation.mark) = some m) :
    t.Within targets (m + 1) (s.afterAll ops) := by
  induction ops generalizing s n with
  | nil =>
    obtain rfl : n = m := Option.some.inj counted
    exact h
  | cons op ops ih =>
    have split : (op :: ops).map Operation.mark = [op.mark] ++ ops.map Operation.mark := rfl
    rw [split, openBlocks?_append, Option.bind_eq_some_iff] at counted
    obtain ⟨k, first, rest⟩ := counted
    rw [List.flatMap_cons] at written
    refine ih (h.after (fun x mem => written x (List.mem_append_left _ mem)) first) ?_ rest
    exact fun x mem => written x (List.mem_append_right _ mem)

end Within

/-- A session stands on the chain of an earlier one, and there all names are bound as they
were, and read so, except for some. -/
structure Restored (targets : List String) (t s : Session) : Prop where
  active : s.active = t.active
  chain : s.chain = t.chain
  bindings : ∀ j ∈ t.chain, ∀ x ∉ targets,
    (s.scopes.bindings j).find? x = (t.scopes.bindings j).find? x
  reads : ∀ x ∉ targets, ∀ line,
    s.scopes.get s.active x line = t.scopes.get t.active x line

theorem Within.restored (h : t.Within targets 0 s) (rooted : t.Rooted) : t.Restored targets s := by
  obtain ⟨inner, whole, none, -⟩ := h.chain
  have chain : s.chain = t.chain := by
    rw [whole, List.eq_nil_of_length_eq_zero none, List.nil_append]
  have bindings : ∀ j ∈ t.chain, ∀ x ∉ targets,
      (s.scopes.bindings j).find? x = (t.scopes.bindings j).find? x := by
    intro j mem x free
    exact h.kept j (Nat.lt_of_le_of_lt (ScopeTree.le_of_mem_chain mem) rooted.inside) x free
  refine ⟨?_, chain, bindings, fun x free line => ?_⟩
  · obtain ⟨outer, mine⟩ := s.chain_eq_cons
    obtain ⟨outer', other⟩ := t.chain_eq_cons
    exact (List.cons.inj (mine.symm.trans (chain.trans other))).1
  · have column : s.column x = t.column x := by
      have same : s.column x = s.chain.map fun j => (s.scopes.bindings j).find? x := rfl
      rw [same, chain]
      exact List.map_congr_left fun j mem => bindings j mem x free
    exact ScopeTree.get_eq_of_column column

/-- A block with all that is done in it restores the session from before, except for the
names that it assigns. -/
theorem Rooted.restored_of_block (h : s.Rooted) {inner : List Operation}
    (counted : openBlocks? 0 (inner.map Operation.mark) = some 0) :
    s.Restored (inner.flatMap Operation.targets)
      (s.afterAll (.openBlock :: inner ++ [.closeBlock])) := by
  have inside := (Within.refl h (inner.flatMap Operation.targets)).openBlock.afterAll
    (fun _ mem => mem) counted
  obtain ⟨s', done, within⟩ := inside.closeBlock
  have left : s.afterAll (.openBlock :: inner ++ [.closeBlock]) = s' := by
    rw [afterAll_append]
    exact after_of_closeBlock done
  rw [left]
  exact within.restored h

end Session

/-- The discipline of scopes, behind any operations on a new session. The chain has the
globals at its end, and one scope more for each block that was opened and not closed. No block
can be closed exactly when the globals are active, and then nothing changes. A block with all
that is done in it leads back to the scope from before, on the same chain, where each name
that no tree in the block assigns is bound as it was. -/
theorem scope_discipline (locals : Locals) (ops : List Session.Operation) :
    let s := (Session.start locals).afterAll ops
    s.chain.length + (Session.start locals).closed ops = 1 + Session.opened ops ∧
      s.chain.getLast? = some s.globals ∧ s.globals = (Session.start locals).globals ∧
      (∀ e s', Session.closeBlock.run s = .error e s' ↔
        s.active = s.globals ∧ e = .internal .noOpenBlock none ∧ s' = s) ∧
      (s.active = s.globals → s.after .closeBlock = s) ∧
      ∀ inner : List Session.Operation,
        openBlocks? 0 (inner.map Session.Operation.mark) = some 0 →
        s.Restored (inner.flatMap Session.Operation.targets)
          (s.afterAll (.openBlock :: inner ++ [.closeBlock])) := by
  intro s
  have new : (Session.start locals).Rooted := .start locals
  have rooted : s.Rooted := new.afterAll ops
  have refused : ∀ e s', Session.closeBlock.run s = .error e s' ↔
      s.active = s.globals ∧ e = .internal .noOpenBlock none ∧ s' = s := by
    intro e s'
    rw [Session.run_closeBlock_eq_error_iff, rooted.enclosing?_eq_none_iff]
  refine ⟨?_, ?_, Session.globals_afterAll _ ops, refused, ?_, fun inner counted => ?_⟩
  · have counted := new.length_chain_afterAll ops
    have single : (Session.start locals).chain = [0] := ScopeTree.chain_of_none rfl
    rwa [single, List.length_singleton] at counted
  · rw [← rooted.globals]
    exact ScopeTree.getLast?_chain s.scopes s.active
  · intro atGlobals
    exact Session.after_of_closeBlock_error ((refused _ _).2 ⟨atGlobals, rfl, rfl⟩)
  · exact rooted.restored_of_block counted

def assignInBlock : List Session.Operation :=
  [.define "y" (.bool true), .evaluate (.assign 0 ⟨.identifier, "x", 1⟩ (.literal .none))]

def sessionWithX : Session := (Session.start .empty).afterAll [.define "x" (.bool false)]

/-- No block can be closed before the block, and the block leaves `y` as it was. -/
theorem assignInBlock_restores :
    sessionWithX.active = sessionWithX.globals ∧
      sessionWithX.after .closeBlock = sessionWithX ∧
      openBlocks? 0 (assignInBlock.map Session.Operation.mark) = some 0 ∧
      sessionWithX.Restored ["x"]
        (sessionWithX.afterAll (.openBlock :: assignInBlock ++ [.closeBlock])) :=
  have discipline := scope_discipline .empty [.define "x" (.bool false)]
  ⟨rfl, discipline.2.2.2.2.1 rfl, rfl, discipline.2.2.2.2.2 assignInBlock rfl⟩

end ScopedExpr
