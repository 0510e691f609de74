import ScopedExpr.ScopeTree

/-!
# Binders on a chain

The innermost scope that binds a name decides what the name means from a scope on:
reading, writing and both ways by distance are told by the binder and by the scope at
the distance.
-/

namespace ScopedExpr.ScopeTree

variable {t : ScopeTree} {i j p d line : Nat} {name : String}

theorem binder?_of_some (h : t.enclosing? i = some p) :
    t.binder? i name = if (t.bindings i).contains name then some i else t.binder? p name := by
  rw [binder?, chain_of_some h, List.find?_cons]
  split <;> simp_all [binder?]

theorem root_of_none (h : t.enclosing? i = none) : t.root i = i := by
  rw [root]
  split <;> simp_all

theorem root_of_some (h : t.enclosing? i = some p) : t.root i = t.root p := by
  rw [root]
  split <;> simp_all

theorem contains_of_binder? (h : t.binder? i name = some j) :
    (t.bindings j).contains name = true :=
  List.find?_some (p := fun k => (t.bindings k).contains name) h

theorem lt_size_of_contains (h : (t.bindings j).contains name = true) : j < t.size := by
  rcases Nat.lt_or_ge j t.size with inside | outside
  · exact inside
  · have none : t.scopes[j]? = none := Array.getElem?_eq_none outside
    simp [bindings, none, Table.contains] at h

private theorem findSome?_of_find? {α β : Type} {l : List α} {f : α → Option β} {a : α}
    (h : l.find? (fun x => (f x).isSome) = some a) : l.findSome? f = f a := by
  induction l with
  | nil => cases h
  | cons b l ih =>
    cases hb : f b with
    | none => simpa [hb] using ih (by simpa [hb] using h)
    | some c =>
      obtain rfl : b = a := by simpa [hb] using h
      simp [hb]

theorem get_of_binder? (h : t.binder? i name = some j) :
    ∃ v, (t.bindings j).find? name = some v ∧ t.get i name line = .ok v := by
  obtain ⟨v, bound⟩ := Option.isSome_iff_exists.1 (contains_of_binder? h)
  refine ⟨v, bound, ?_⟩
  rw [get, findSome?_of_find? h, bound]

theorem get_of_binder?_none (h : t.binder? i name = none) :
    t.get i name line = .error (.runtime (.undefinedVariable name) line) := by
  have unbound : (t.chain i).findSome? (fun j => (t.bindings j).find? name) = none := by
    rw [List.findSome?_eq_none_iff]
    intro j mem
    have free := List.find?_eq_none.1 h j mem
    simpa [Table.contains] using free
  rw [get, unbound]

/-- Scopes with the same binder of a name read the same. -/
theorem get_eq_of_binder?_eq (h : t.binder? i name = t.binder? j name) :
    t.get i name line = t.get j name line := by
  cases binder : t.binder? j name with
  | none => rw [get_of_binder?_none binder, get_of_binder?_none (h.trans binder)]
  | some k =>
    obtain ⟨v, bound, value⟩ := get_of_binder? binder
    obtain ⟨w, bound', value'⟩ := get_of_binder? (h.trans binder)
    rw [value, value', Option.some.inj (bound.symm.trans bound')]

theorem getAt_of_chain {v : Value} (h : (t.chain i)[d]? = some j)
    (bound : (t.bindings j).find? name = some v) : t.getAt i d name line = .ok v := by
  simp only [getAt, ancestor, h, bind, Except.bind, bound]

theorem run_writeAt_of_chain (h : (t.chain i)[d]? = some j) (name : String) (v : Value)
    (line : Nat) : (writeAt i d name v line).run t = .ok () (t.define j name v) := by
  simp only [writeAt, EStateM.run_bind, EStateM.run_get, ancestor, h]
  rfl

theorem run_writeAt_of_chain_none (h : (t.chain i)[d]? = none) (name : String) (v : Value)
    (line : Nat) : (writeAt i d name v line).run t =
      .error (.internal (.chainEnded ((t.chain i).length - 1) d) (some line)) t := by
  simp only [writeAt, EStateM.run_bind, EStateM.run_get, ancestor, h]
  rfl

theorem assignAt_of_chain (h : (t.chain i)[d]? = some j) (name : String) (v : Value) (line : Nat) :
    t.assignAt i d name v line = .ok (t.define j name v) := by
  rw [assignAt, run_writeAt_of_chain h]

theorem contains_define (h : j < t.size) (v : Value) (k : Nat) (x : String) :
    ((t.define j name v).bindings k).contains x =
      (decide (k = j ∧ x = name) || (t.bindings k).contains x) := by
  by_cases at_scope : k = j
  · subst at_scope
    rw [bindings_define_self t name v h, Table.contains_insert]
    simp
  · rw [bindings_define_of_ne t name v at_scope]
    simp [at_scope]

end ScopedExpr.ScopeTree
