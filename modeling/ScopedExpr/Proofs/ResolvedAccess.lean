import ScopedExpr.Proofs.ReferenceResolution
import ScopedExpr.Proofs.ScopeBinders

/-!
# Access by distance is access by name

The open blocks of a resolution mirror the chain of the session that carries out the same
steps later: as many blocks as scopes inside the globals, with the same names. While
this holds, the distance of a reference leads to the binder of its name, and a reference
without a distance has no binder but the globals.
-/

namespace ScopedExpr

/-- The chain from a scope out to the globals binds the names that blocks declare. -/
inductive ScopeTree.Mirrors (t : ScopeTree) (globals : Nat) : Nat → List (List String) → Prop where
  | globals (top : t.enclosing? globals = none) : Mirrors t globals globals []
  | block {i outer names blocks} (up : t.enclosing? i = some outer)
      (declared : ∀ x, (t.bindings i).contains x = names.contains x)
      (rest : Mirrors t globals outer blocks) : Mirrors t globals i (names :: blocks)

namespace ScopeTree.Mirrors

variable {t : ScopeTree} {g i j line : Nat} {blocks : List (List String)} {names : List String}
  {name : String}

theorem top (h : t.Mirrors g i blocks) : t.enclosing? g = none := by
  induction h with
  | globals top => exact top
  | block _ _ _ ih => exact ih

theorem root_eq (h : t.Mirrors g i blocks) : t.root i = g := by
  induction h with
  | globals top => exact root_of_none top
  | block up _ _ ih => exact (root_of_some up).trans ih

theorem eq_globals (h : t.Mirrors g i []) : i = g := by
  cases h
  rfl

theorem enclosing?_globals (h : t.Mirrors g i []) : t.enclosing? i = none := by
  rw [h.eq_globals]
  exact h.top

theorem enclosing?_block (h : t.Mirrors g i (names :: blocks)) :
    ∃ outer, t.enclosing? i = some outer ∧ t.Mirrors g outer blocks := by
  cases h with
  | block up _ rest => exact ⟨_, up, rest⟩

/-- The distance of a name leads to its binder. -/
theorem binder?_of_distance {d : Nat} (h : t.Mirrors g i blocks)
    (found : blocks.findIdx? (fun block => block.contains name) = some d) :
    ∃ j, (t.chain i)[d]? = some j ∧ t.binder? i name = some j := by
  induction h generalizing d with
  | globals => cases found
  | @block i outer names blocks up declared rest ih =>
    rw [chain_of_some up, binder?_of_some up, declared]
    rw [List.findIdx?_cons] at found
    cases is : names.contains name with
    | true =>
      simp only [is, if_true] at found
      cases found
      exact ⟨i, rfl, rfl⟩
    | false =>
      simp only [is, Bool.false_eq_true, if_false, Option.map_eq_some_iff] at found
      obtain ⟨d, found, rfl⟩ := found
      obtain ⟨j, place, binder⟩ := ih found
      exact ⟨j, by simpa using place, by simpa using binder⟩

/-- A name without a distance is bound by the globals or not at all. -/
theorem binder?_of_no_distance (h : t.Mirrors g i blocks)
    (notFound : blocks.findIdx? (fun block => block.contains name) = none) :
    t.binder? i name = t.binder? g name := by
  induction h with
  | globals => rfl
  | @block i outer names blocks up declared rest ih =>
    rw [List.findIdx?_cons] at notFound
    cases is : names.contains name with
    | true => simp only [is, if_true] at notFound; cases notFound
    | false =>
      simp only [is, Bool.false_eq_true, if_false, Option.map_eq_none_iff] at notFound
      rw [binder?_of_some up, declared, is]
      simpa using ih notFound

theorem define_of_contains (h : t.Mirrors g i blocks)
    (bound : (t.bindings j).contains name = true) (v : Value) :
    (t.define j name v).Mirrors g i blocks := by
  induction h with
  | globals top => exact .globals ((t.enclosing?_define _ _ _ _).trans top)
  | @block k outer names blocks up declared rest ih =>
    refine .block ((t.enclosing?_define _ _ _ _).trans up) (fun x => ?_) ih
    rw [contains_define (lt_size_of_contains bound), ← declared]
    by_cases same : k = j ∧ x = name
    · obtain ⟨rfl, rfl⟩ := same
      simp [bound]
    · simp [same]

theorem define_globals (h : t.Mirrors g i blocks) (name : String) (v : Value) :
    (t.define g name v).Mirrors g i blocks := by
  have top := h.top
  induction h with
  | globals top => exact .globals ((t.enclosing?_define _ _ _ _).trans top)
  | @block i outer names blocks up declared rest ih =>
    have ne : i ≠ g := by
      rintro rfl
      rw [top] at up
      cases up
    refine .block ((t.enclosing?_define _ _ _ _).trans up) (fun x => ?_) ih
    rw [bindings_define_of_ne t name v ne, declared]

theorem assign (h : t.Mirrors g i blocks) (v : Value) :
    (t.assign i name v).Mirrors g i blocks := by
  rw [ScopeTree.assign]
  cases binder : t.binder? i name with
  | none =>
    rw [Option.getD_none, h.root_eq]
    exact h.define_globals name v
  | some j => exact h.define_of_contains (contains_of_binder? binder) v

theorem define_of_lt (h : t.Mirrors g i blocks) (lt : i < j) (v : Value) :
    (t.define j name v).Mirrors g i blocks := by
  induction h with
  | globals top => exact .globals ((t.enclosing?_define _ _ _ _).trans top)
  | @block i outer names blocks up declared rest ih =>
    refine .block ((t.enclosing?_define _ _ _ _).trans up) (fun x => ?_)
      (ih (Nat.lt_trans (enclosing?_lt up) lt))
    rw [bindings_define_of_ne t name v (Nat.ne_of_lt lt), declared]

/-- Declaring a name in the innermost block and binding it in its scope. -/
theorem define_block (h : t.Mirrors g i (names :: blocks)) (inside : i < t.size) (v : Value) :
    (t.define i name v).Mirrors g i ((name :: names) :: blocks) := by
  cases h with
  | block up declared rest =>
    refine .block ((t.enclosing?_define _ _ _ _).trans up) (fun x => ?_)
      (rest.define_of_lt (enclosing?_lt up) v)
    rw [contains_define inside, declared]
    simp

theorem add (h : t.Mirrors g i blocks) (inside : i < t.size) (b : Table String Value)
    (e : Option Nat) : (t.add b e).Mirrors g i blocks := by
  induction h with
  | globals top => exact .globals ((t.enclosing?_add_of_lt _ _ inside).trans top)
  | @block i outer names blocks up declared rest ih =>
    refine .block ((t.enclosing?_add_of_lt _ _ inside).trans up) (fun x => ?_)
      (ih (Nat.lt_trans (enclosing?_lt up) inside))
    rw [bindings_add_of_lt t _ _ inside, declared]

theorem addChild (h : t.Mirrors g i blocks) (inside : i < t.size) :
    (t.addChild i).Mirrors g t.size ([] :: blocks) := by
  have up : (t.addChild i).enclosing? t.size = some i := by
    rw [ScopeTree.addChild, enclosing?_add_size]
    simp [inside]
  refine .block up (fun x => ?_) (h.add inside _ _)
  rw [ScopeTree.addChild, bindings_add_size]
  rfl

end ScopeTree.Mirrors

namespace Session

def forget (s : Session) : Session := { s with locals := .empty }

/-- A session with given distances whose chain mirrors blocks. -/
structure Follows (s : Session) (locals : Locals) (blocks : List (List String)) : Prop where
  locals : s.locals = locals
  scopes : s.scopes.Mirrors s.globals s.active blocks
  inside : s.active < s.scopes.size

theorem follows_start (locals : Locals) : (start locals).Follows locals [] where
  locals := rfl
  scopes := .globals rfl
  inside := Nat.zero_lt_one

namespace Follows

variable {s : Session} {locals : Locals} {blocks : List (List String)} {id line : Nat}
  {name : Token}

theorem openBlock (h : s.Follows locals blocks) : s.openBlock.Follows locals ([] :: blocks) where
  locals := h.locals
  scopes := h.scopes.addChild h.inside
  inside := by simp [Session.openBlock, ScopeTree.addChild]

theorem closeBlock (h : s.Follows locals blocks) :
    (∃ s', Session.closeBlock.run s = .ok () s' ∧
      Session.closeBlock.run s.forget = .ok () s'.forget ∧ s'.Follows locals blocks.tail) ∨
    ∃ e, Session.closeBlock.run s = .error e s ∧
      Session.closeBlock.run s.forget = .error e s.forget ∧ blocks.tail = blocks := by
  cases blocks with
  | nil =>
    have top := h.scopes.enclosing?_globals
    refine .inr ⟨.internal .noOpenBlock none, ?_, ?_, rfl⟩
    · exact run_closeBlock_eq_error_iff.2 ⟨top, rfl, rfl⟩
    · exact run_closeBlock_eq_error_iff.2 ⟨top, rfl, rfl⟩
  | cons names outer =>
    obtain ⟨k, up, rest⟩ := h.scopes.enclosing?_block
    have inside := Nat.lt_trans (ScopeTree.enclosing?_lt up) h.inside
    refine .inl ⟨{ s with active := k }, ?_, ?_, h.locals, rest, inside⟩
    · exact run_closeBlock_eq_ok_iff.2 ⟨k, up, rfl⟩
    · exact run_closeBlock_eq_ok_iff.2 ⟨k, up, rfl⟩

theorem define (h : s.Follows locals blocks) (r : Resolution) (same : r.blocks = blocks)
    (x : String) (v : Value) : (s.define x v).Follows locals (r.declare x).blocks := by
  refine ⟨h.locals, ?_, by simpa [Session.define] using h.inside⟩
  change (s.scopes.define s.active x v).Mirrors s.globals s.active (r.declare x).blocks
  cases blocks with
  | nil =>
    have unchanged : (r.declare x).blocks = [] := by simp [Resolution.declare, same]
    rw [unchanged]
    have mirror := h.scopes.define_globals x v
    rwa [← h.scopes.eq_globals] at mirror ⊢
  | cons names outer =>
    have declared : (r.declare x).blocks = (x :: names) :: outer := by
      simp [Resolution.declare, same]
    rw [declared]
    exact h.scopes.define_block h.inside v

/-- A reference reads the same by its distance as by its name. -/
theorem read_eq (h : s.Follows locals blocks)
    (noted : locals.find? id = blocks.findIdx? fun block => block.contains name.lexeme) :
    Access.resolved.read s id name = Access.dynamic.read s.forget id name := by
  have byName : Access.dynamic.read s.forget id name =
      s.scopes.get s.active name.lexeme name.line := rfl
  rw [byName]
  cases found : blocks.findIdx? fun block => block.contains name.lexeme with
  | none =>
    have distance : s.locals.find? id = none := by rw [h.locals, noted, found]
    simp only [Access.resolved, distance]
    exact ScopeTree.get_eq_of_binder?_eq (h.scopes.binder?_of_no_distance found).symm
  | some d =>
    have distance : s.locals.find? id = some d := by rw [h.locals, noted, found]
    simp only [Access.resolved, distance]
    obtain ⟨j, place, binder⟩ := h.scopes.binder?_of_distance found
    obtain ⟨v, bound, value⟩ := ScopeTree.get_of_binder? binder
    rw [value]
    exact ScopeTree.getAt_of_chain place bound

/-- A reference is written the same by its distance as by its name. -/
theorem write_eq (h : s.Follows locals blocks)
    (noted : locals.find? id = blocks.findIdx? fun block => block.contains name.lexeme)
    (v : Value) :
    ∃ s', (Access.resolved.write id name v).run s = .ok () s' ∧
      (Access.dynamic.write id name v).run s.forget = .ok () s'.forget ∧
        s'.Follows locals blocks := by
  refine ⟨{ s with scopes := s.scopes.assign s.active name.lexeme v }, ?_, rfl, h.locals, ?_, ?_⟩
  · cases found : blocks.findIdx? fun block => block.contains name.lexeme with
    | none =>
      have distance : s.locals.find? id = none := by rw [h.locals, noted, found]
      exact Access.run_resolved_write_of_none distance
    | some d =>
      have distance : s.locals.find? id = some d := by rw [h.locals, noted, found]
      obtain ⟨j, place, binder⟩ := h.scopes.binder?_of_distance found
      rw [ScopeTree.assign, binder, Option.getD_some]
      exact Access.run_resolved_write_of_ok distance
        (ScopeTree.run_writeAt_of_chain place name.lexeme v name.line)
  · exact h.scopes.assign v
  · simpa [ScopeTree.assign] using h.inside

end Follows

end Session

end ScopedExpr
