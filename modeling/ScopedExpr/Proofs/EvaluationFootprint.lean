import ScopedExpr.Proofs.PairedRuns
import ScopedExpr.Proofs.ScopeColumns

/-!
# The footprint of an evaluation

Of a session, the evaluation of a tree sees the length of the chain, the distances of the
tree's references and the columns of its names; it writes names that the tree assigns,
and nothing else. So two sessions that agree in what is seen have the same result and
still agree afterwards, and all that is not written stays, also when the evaluation fails.
-/

namespace ScopedExpr

namespace Expr

def names (e : Expr) : List String := e.references.map fun reference => reference.2.lexeme

def targets (e : Expr) : List String := e.assignments.map fun target => target.2.lexeme

variable {e : Expr} {id : Nat} {name : Token}

theorem mem_names (mem : (id, name) ∈ e.references) : name.lexeme ∈ e.names :=
  List.mem_map_of_mem (f := fun reference : Nat × Token => reference.2.lexeme) mem

theorem mem_targets (mem : (id, name) ∈ e.assignments) : name.lexeme ∈ e.targets :=
  List.mem_map_of_mem (f := fun target : Nat × Token => target.2.lexeme) mem

end Expr

namespace Session

variable {s s' s'' t : Session} {e : Expr} {id d j k : Nat} {name : Token} {v : Value}
  {x other : String} {targets : List String}

def bindAt (s : Session) (j : Nat) (x : String) (v : Value) : Session :=
  { s with scopes := s.scopes.define j x v }

/-- At most the bindings of some names are new: the scopes and what encloses them, the
active and the global one and the distances stay, no binding is removed, and the bindings
of all other names stay in every scope. -/
structure Frame (targets : List String) (s s' : Session) : Prop where
  active : s'.active = s.active
  globals : s'.globals = s.globals
  locals : s'.locals = s.locals
  size : s'.scopes.size = s.scopes.size
  enclosing : ∀ i, s'.scopes.enclosing? i = s.scopes.enclosing? i
  kept : ∀ i x, (s.scopes.bindings i).contains x = true → (s'.scopes.bindings i).contains x = true
  unwritten : ∀ i, ∀ x ∉ targets, (s'.scopes.bindings i).find? x = (s.scopes.bindings i).find? x

namespace Frame

theorem refl (targets : List String) (s : Session) : s.Frame targets s :=
  ⟨rfl, rfl, rfl, rfl, fun _ => rfl, fun _ _ => id, fun _ _ _ => rfl⟩

theorem trans (first : Frame targets s s') (next : Frame targets s' s'') :
    Frame targets s s'' where
  active := next.active.trans first.active
  globals := next.globals.trans first.globals
  locals := next.locals.trans first.locals
  size := next.size.trans first.size
  enclosing i := (next.enclosing i).trans (first.enclosing i)
  kept i x bound := next.kept i x (first.kept i x bound)
  unwritten i x free := (next.unwritten i x free).trans (first.unwritten i x free)

/-- One scope binds one of the names. -/
theorem bindAt (j : Nat) (mem : x ∈ targets) (v : Value) :
    s.Frame targets (s.bindAt j x v) where
  active := rfl
  globals := rfl
  locals := rfl
  size := ScopeTree.size_define _ _ _ _
  enclosing i := ScopeTree.enclosing?_define _ _ _ _ _
  kept i y bound := by
    rw [Table.contains, Session.bindAt, ScopeTree.find?_define]
    split
    · rfl
    · exact bound
  unwritten i y free := by
    rw [Session.bindAt, ScopeTree.find?_define, if_neg]
    rintro ⟨-, -, rfl⟩
    exact free mem

theorem chain (h : s.Frame targets s') : s'.chain = s.chain := by
  rw [Session.chain, h.active, Session.chain]
  exact ScopeTree.chain_congr h.enclosing s.active

end Frame

def column (s : Session) (x : String) : List (Option Value) := s.scopes.column s.active x

@[simp] theorem length_column (s : Session) (x : String) :
    (s.column x).length = s.chain.length :=
  ScopeTree.length_column _ _ _

/-- The place on the chain that a reference writes: at its distance or, without one, where
a write by name goes. -/
def place (s : Session) (id : Nat) (x : String) : Nat :=
  (s.locals.find? id).getD (ScopeTree.writePlace (s.column x))

theorem write_of_place (at_place : s.chain[s.place id name.lexeme]? = some j) (v : Value) :
    (Access.resolved.write id name v).run s = .ok () (s.bindAt j name.lexeme v) := by
  unfold place at at_place
  cases distance : s.locals.find? id with
  | some d =>
    rw [distance, Option.getD_some] at at_place
    exact Access.run_resolved_write_of_ok distance
      (ScopeTree.run_writeAt_of_chain at_place name.lexeme v name.line)
  | none =>
    rw [distance] at at_place
    have target := (ScopeTree.chain_writePlace s.scopes s.active name.lexeme).symm.trans at_place
    rw [Access.run_resolved_write_of_none distance, ScopeTree.assign, Option.some.inj target,
      bindAt]

theorem write_of_no_place (ended : s.chain[s.place id name.lexeme]? = none) (v : Value) :
    (Access.resolved.write id name v).run s =
      .error (.internal (.chainEnded (s.chain.length - 1) (s.place id name.lexeme))
        (some name.line)) s := by
  unfold place at ended ⊢
  cases distance : s.locals.find? id with
  | some d =>
    rw [distance] at ended
    exact Access.run_resolved_write_of_error distance
      (ScopeTree.run_writeAt_of_chain_none ended name.lexeme v name.line)
  | none =>
    rw [distance] at ended
    cases (ScopeTree.chain_writePlace s.scopes s.active name.lexeme).symm.trans ended

/-- A run beside itself: what has been written so far stays within the frame. -/
theorem together_frame (s : Session) (e : Expr) :
    e.Together (fun t t' => t' = t ∧ s.Frame e.targets t) .resolved .resolved where
  reads id name _ := .read fun t t' related => by rw [related.1]
  writes id name mem v := .of_runs fun t t' related => by
    obtain ⟨rfl, frame⟩ := related
    cases reached : t'.chain[t'.place id name.lexeme]? with
    | none =>
      have failed := write_of_no_place reached v
      exact .inl ⟨_, t', t', failed, failed, rfl, frame⟩
    | some j =>
      have written := write_of_place reached v
      refine .inr ⟨(), _, _, written, written, rfl, ?_⟩
      exact frame.trans (.bindAt j (Expr.mem_targets mem) v)

theorem frame_evaluate (s : Session) (e : Expr) :
    s.Frame e.targets (s.evaluate .resolved e).2 :=
  (evaluate_of_together (together_frame s e) ⟨rfl, .refl _ s⟩).2.2

/-- The active scope is there, and its chain leads to the globals. -/
structure Rooted (s : Session) : Prop where
  inside : s.active < s.scopes.size
  globals : s.scopes.root s.active = s.globals

namespace Rooted

theorem start (locals : Locals) : (start locals).Rooted :=
  ⟨Nat.zero_lt_one, ScopeTree.root_of_none rfl⟩

theorem of_frame (h : s.Rooted) (frame : s.Frame targets s') : s'.Rooted where
  inside := by
    rw [frame.active, frame.size]
    exact h.inside
  globals := by
    rw [frame.active, frame.globals, ScopeTree.root_congr frame.enclosing]
    exact h.globals

theorem openBlock (h : s.Rooted) : s.openBlock.Rooted where
  inside := by simp [Session.openBlock, ScopeTree.addChild]
  globals := by
    have last := ScopeTree.getLast?_chain (s.scopes.addChild s.active) s.scopes.size
    rw [ScopeTree.chain_addChild _ h.inside, List.getLast?_cons, ScopeTree.getLast?_chain] at last
    exact (Option.some.inj last).symm.trans h.globals

theorem closeBlock (h : s.Rooted) (closed : Session.closeBlock.run s = .ok () s') :
    s'.Rooted := by
  obtain ⟨outer, up, rfl⟩ := run_closeBlock_eq_ok_iff.1 closed
  exact ⟨Nat.lt_trans (ScopeTree.enclosing?_lt up) h.inside,
    (ScopeTree.root_of_some up).symm.trans h.globals⟩

theorem bindAt (h : s.Rooted) (j : Nat) (x : String) (v : Value) : (s.bindAt j x v).Rooted :=
  h.of_frame (.bindAt j (List.mem_singleton_self x) v)

theorem define (h : s.Rooted) (x : String) (v : Value) : (s.define x v).Rooted :=
  h.bindAt s.active x v

end Rooted

/-- The sessions that come of a new one. Others that hold a scope may write it too. -/
inductive Reached : Session → Prop where
  | start (locals : Locals) : Reached (start locals)
  | openBlock {s : Session} (h : Reached s) : Reached s.openBlock
  | closeBlock {s s' : Session} (h : Reached s) (closed : closeBlock.run s = .ok () s') :
      Reached s'
  | define {s : Session} (h : Reached s) (x : String) (v : Value) : Reached (s.define x v)
  | noteLocal {s : Session} (h : Reached s) (id distance : Nat) :
      Reached (s.noteLocal id distance)
  | bindAt {s : Session} (h : Reached s) (j : Nat) (x : String) (v : Value) :
      Reached (s.bindAt j x v)
  | evaluate {s : Session} (h : Reached s) (e : Expr) : Reached (s.evaluate .resolved e).2

theorem Reached.rooted (h : s.Reached) : s.Rooted := by
  induction h with
  | start locals => exact .start locals
  | openBlock _ ih => exact ih.openBlock
  | closeBlock _ closed ih => exact ih.closeBlock closed
  | define _ x v ih => exact ih.define x v
  | noteLocal _ id distance ih => exact ⟨ih.inside, ih.globals⟩
  | bindAt _ j x v ih => exact ih.bindAt j x v
  | @evaluate s _ e ih => exact ih.of_frame (s.frame_evaluate e)

/-- Two sessions that a tree cannot tell apart: their chains are equally long, they have
the same distances of the tree's references, and at each place of the chain its names are
bound to the same value or not at all. -/
structure Alike (e : Expr) (s t : Session) : Prop where
  depth : s.chain.length = t.chain.length
  distances : ∀ id name, (id, name) ∈ e.references → s.locals.find? id = t.locals.find? id
  columns : ∀ x ∈ e.names, s.column x = t.column x

theorem column_bindAt_of_ne (h : other ≠ x) : (s.bindAt j x v).column other = s.column other :=
  ScopeTree.column_define_of_ne h

theorem Rooted.column_bindAt (h : s.Rooted) (place : s.chain[d]? = some j) (x : String)
    (v : Value) : (s.bindAt j x v).column x = (s.column x).set d (some v) :=
  ScopeTree.column_define h.inside place

namespace Alike

theorem getElem?_chain (h : s.Alike e t) (reached : s.chain[d]? = some j) :
    ∃ k, t.chain[d]? = some k := by
  obtain ⟨inside, -⟩ := List.getElem?_eq_some_iff.1 reached
  exact ⟨_, List.getElem?_eq_getElem (h.depth ▸ inside)⟩

/-- The same write at the same place of both chains. -/
theorem bindAt (h : s.Alike e t) (rooted : s.Rooted) (rooted' : t.Rooted)
    (place : s.chain[d]? = some j) (place' : t.chain[d]? = some k) (x : String) (v : Value) :
    (s.bindAt j x v).Alike e (t.bindAt k x v) where
  depth := by simpa [Session.bindAt, Session.chain] using h.depth
  distances := h.distances
  columns y mem := by
    by_cases written : y = x
    · subst written
      rw [rooted.column_bindAt place, rooted'.column_bindAt place', h.columns y mem]
    · rw [column_bindAt_of_ne written, column_bindAt_of_ne written, h.columns y mem]

theorem read_eq (h : s.Alike e t) (rooted : s.Rooted) (rooted' : t.Rooted)
    (mem : (id, name) ∈ e.references) :
    Access.resolved.read s id name = Access.resolved.read t id name := by
  have column := h.columns name.lexeme (Expr.mem_names mem)
  have distance := h.distances id name mem
  cases noted : t.locals.find? id with
  | some d =>
    rw [noted] at distance
    simp only [Access.resolved, distance, noted]
    exact ScopeTree.getAt_eq_of_column column
  | none =>
    rw [noted] at distance
    simp only [Access.resolved, distance, noted, ← rooted.globals, ← rooted'.globals]
    exact ScopeTree.get_root_eq_of_column column

theorem place_eq (h : s.Alike e t) (mem : (id, name) ∈ e.references) :
    s.place id name.lexeme = t.place id name.lexeme := by
  rw [place, place, h.distances id name mem,
    h.columns name.lexeme (Expr.mem_names mem)]

end Alike

theorem together_alike (e : Expr) :
    e.Together (fun s t => s.Rooted ∧ t.Rooted ∧ s.Alike e t) .resolved .resolved where
  reads id name mem := .read fun s t related => by
    obtain ⟨rooted, rooted', alike⟩ := related
    exact alike.read_eq rooted rooted' mem
  writes id name mem v := .of_runs fun s t related => by
    have ⟨rooted, rooted', alike⟩ := related
    -- The place hangs on the distance and the column alone: both sessions write or both fail.
    have same := alike.place_eq ((Expr.assignments_sublist e).subset mem)
    cases reached : s.chain[s.place id name.lexeme]? with
    | none =>
      have ended : t.chain[t.place id name.lexeme]? = none := by
        rw [← same, List.getElem?_eq_none_iff, ← alike.depth]
        exact List.getElem?_eq_none_iff.1 reached
      refine .inl ⟨_, s, t, write_of_no_place reached v, ?_, related⟩
      rw [write_of_no_place ended v, same, alike.depth]
    | some j =>
      obtain ⟨k, reached'⟩ := alike.getElem?_chain reached
      refine .inr ⟨(), _, _, write_of_place reached v, write_of_place (same ▸ reached') v, ?_⟩
      exact ⟨rooted.bindAt j name.lexeme v, rooted'.bindAt k name.lexeme v,
        alike.bindAt rooted rooted' reached reached' name.lexeme v⟩

theorem column_start (locals : Locals) (x : String) : (start locals).column x = [none] := by
  have top : (start locals).scopes.enclosing? 0 = none := rfl
  have only : (start locals).scopes.chain 0 = [0] := ScopeTree.chain_of_none top
  rw [column, ScopeTree.column, show (start locals).active = 0 from rfl, only]
  rfl

theorem Rooted.column_openBlock (h : s.Rooted) (x : String) :
    s.openBlock.column x = none :: s.column x :=
  ScopeTree.column_addChild h.inside x

theorem Rooted.column_define (h : s.Rooted) (x : String) (v : Value) (y : String) :
    (s.define x v).column y = if y = x then (s.column y).set 0 (some v) else s.column y := by
  have innermost : s.chain[0]? = some s.active := by
    rw [← List.head?_eq_getElem?]
    exact ScopeTree.head?_chain s.scopes s.active
  by_cases same : y = x
  · subst same
    rw [if_pos rfl]
    exact h.column_bindAt innermost y v
  · rw [if_neg same]
    exact column_bindAt_of_ne same

end Session

/-- The footprint of an evaluation. Sessions that a tree cannot tell apart give it the same
value or the same error and are still not told apart; an evaluation has the frame of the
names that its tree assigns, whether it fails or not, and a failing value is all that its
assignment does. Every session that comes of a new one is rooted. -/
theorem evaluation_footprint :
    (∀ (e : Expr) (s t : Session), s.Rooted → t.Rooted → s.Alike e t →
      (s.evaluate .resolved e).1 = (t.evaluate .resolved e).1 ∧
        (s.evaluate .resolved e).2.Alike e (t.evaluate .resolved e).2) ∧
    (∀ (e : Expr) (s : Session), s.Frame e.targets (s.evaluate .resolved e).2 ∧
      (s.evaluate .resolved e).2.chain = s.chain) ∧
    (∀ (id : Nat) (name : Token) (value : Expr) (s s' : Session) (err : EvalError),
      s.evaluate .resolved value = (.error err, s') →
        s.evaluate .resolved (.assign id name value) = (.error err, s') ∧
          s.Frame value.targets s') ∧
    ∀ s : Session, s.Reached → s.Rooted := by
  refine ⟨fun e s t rooted rooted' alike => ?_, fun e s => ?_,
    fun id name value s s' err failed => ⟨?_, ?_⟩, fun s reached => ?_⟩
  · obtain ⟨result, -, -, after⟩ :=
      Session.evaluate_of_together (Session.together_alike e) ⟨rooted, rooted', alike⟩
    exact ⟨result, after⟩
  · exact ⟨s.frame_evaluate e, (s.frame_evaluate e).chain⟩
  · rw [Session.evaluate_eq_error_iff] at failed ⊢
    rw [Expr.evaluate, EStateM.run_bind, failed]
  · have frame := s.frame_evaluate value
    rwa [failed] at frame
  · exact reached.rooted

/-- The tree of `x = y`. -/
def copyToX : Expr :=
  .assign 0 ⟨.identifier, "x", 1⟩ (.reference 1 ⟨.identifier, "y", 1⟩)

/-- A global `x` and, in a block, a `y`, which the tree finds by its distance. -/
def plainSession : Session :=
  (((Session.start (Table.empty.insert 1 0)).define "x" (.bool true)).openBlock).define "y"
    (.text "b")

/-- The same with a global and a distance more. -/
def crowdedSession : Session :=
  ((((Session.start ((Table.empty.insert 7 3).insert 1 0)).define "z" .none).define "x"
    (.bool true)).openBlock).define "y" (.text "b")

theorem copyToX_sees_only_its_names :
    plainSession.Rooted ∧ crowdedSession.Rooted ∧ plainSession.Alike copyToX crowdedSession ∧
      (plainSession.evaluate .resolved copyToX).1 = (crowdedSession.evaluate .resolved copyToX).1 ∧
      (plainSession.evaluate .resolved copyToX).2.Alike copyToX
        (crowdedSession.evaluate .resolved copyToX).2 := by
  have new := Session.Rooted.start (Table.empty.insert 1 0)
  have new' := Session.Rooted.start ((Table.empty.insert 7 3).insert 1 0)
  have globals := new.define "x" (.bool true)
  have globals' := (new'.define "z" .none).define "x" (.bool true)
  have plain : plainSession.Rooted := globals.openBlock.define _ _
  have crowded : crowdedSession.Rooted := globals'.openBlock.define _ _
  have columns : ∀ y ∈ copyToX.names, plainSession.column y = crowdedSession.column y := by
    intro y mem
    have unseen : y ≠ "z" := by
      rintro rfl
      exact absurd mem (by decide)
    rw [plainSession, globals.openBlock.column_define, globals.column_openBlock,
      new.column_define, Session.column_start]
    rw [crowdedSession, globals'.openBlock.column_define, globals'.column_openBlock,
      (new'.define "z" .none).column_define, new'.column_define, Session.column_start,
      if_neg unseen]
  have alike : plainSession.Alike copyToX crowdedSession := by
    refine ⟨?_, fun id name mem => ?_, columns⟩
    · simpa using congrArg List.length (columns "x" (by decide))
    · obtain ⟨rfl, -⟩ | ⟨rfl, -⟩ : (id = 0 ∧ _) ∨ id = 1 ∧ _ := by
        simpa [copyToX, Expr.references] using mem
      · rfl
      · rfl
  exact ⟨plain, crowded, alike, evaluation_footprint.1 copyToX _ _ plain crowded alike⟩

end ScopedExpr
