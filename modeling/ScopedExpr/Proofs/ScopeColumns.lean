import ScopedExpr.Proofs.ScopeBinders

/-!
# Columns

The column of a name is what the scopes of a chain bind it to, from the innermost one
outward. What a name reads as depends on its column alone, by name and by distance; so
does the place that a write by name reaches, and a write sets one entry of the column.
-/

namespace ScopedExpr.ScopeTree

variable {t u : ScopeTree} {i j d line : Nat} {name other : String} {v : Value}

theorem le_of_mem_chain (mem : j ∈ t.chain i) : j ≤ i := by
  fun_induction t.chain i with
  | case1 i top => simp_all
  | case2 i p up ih =>
    rcases List.mem_cons.1 mem with rfl | mem
    · exact Nat.le_refl _
    · exact Nat.le_trans (ih mem) (Nat.le_of_lt (enclosing?_lt up))

theorem nodup_chain (t : ScopeTree) (i : Nat) : (t.chain i).Nodup := by
  fun_induction t.chain i with
  | case1 i top => simp
  | case2 i p up ih =>
    refine List.nodup_cons.2 ⟨fun mem => ?_, ih⟩
    have outside := enclosing?_lt up
    have inside := le_of_mem_chain mem
    omega

theorem chain_congr (same : ∀ k, t.enclosing? k = u.enclosing? k) (i : Nat) :
    t.chain i = u.chain i := by
  fun_induction u.chain i with
  | case1 i top => exact chain_of_none ((same i).trans top)
  | case2 i p up ih => rw [chain_of_some ((same i).trans up), ih]

theorem enclosing?_root (t : ScopeTree) (i : Nat) : t.enclosing? (t.root i) = none := by
  fun_induction t.root i with
  | case1 i top => exact top
  | case2 i p up ih => exact ih

theorem root_congr (same : ∀ k, t.enclosing? k = u.enclosing? k) (i : Nat) :
    t.root i = u.root i := by
  have last := getLast?_chain t i
  rw [chain_congr same i, getLast?_chain] at last
  exact (Option.some.inj last).symm

/-- What the scopes of a chain bind a name to. -/
def column (t : ScopeTree) (i : Nat) (name : String) : List (Option Value) :=
  (t.chain i).map fun j => (t.bindings j).find? name

@[simp] theorem length_column (t : ScopeTree) (i : Nat) (name : String) :
    (t.column i name).length = (t.chain i).length :=
  List.length_map _

theorem getElem?_column (t : ScopeTree) (i d : Nat) (name : String) :
    (t.column i name)[d]? = (t.chain i)[d]?.map fun j => (t.bindings j).find? name :=
  List.getElem?_map

theorem column_root (t : ScopeTree) (i : Nat) (name : String) :
    t.column (t.root i) name = (t.column i name).getLast?.toList := by
  rw [column, chain_of_none (enclosing?_root t i), column, List.getLast?_map, getLast?_chain]
  rfl

/-- A new scope binds nothing. -/
theorem column_addChild (inside : i < t.size) (name : String) :
    (t.addChild i).column t.size name = none :: t.column i name := by
  have new : (t.addChild i).bindings t.size = .empty := bindings_add_size t _ _
  have old : ∀ j ∈ t.chain i, ((t.addChild i).bindings j).find? name =
      (t.bindings j).find? name := by
    intro j mem
    have earlier := Nat.lt_of_le_of_lt (le_of_mem_chain mem) inside
    rw [addChild, bindings_add_of_lt t _ _ earlier]
  rw [column, chain_addChild t inside, List.map_cons, new, List.map_congr_left old]
  rfl

theorem get_eq_of_column (same : t.column i name = u.column j name) :
    t.get i name line = u.get j name line := by
  have first := congrArg (List.findSome? id) same
  rw [column, column, List.findSome?_map, List.findSome?_map] at first
  have innermost : (t.chain i).findSome? (fun k => (t.bindings k).find? name) =
      (u.chain j).findSome? fun k => (u.bindings k).find? name := first
  rw [get, get, innermost]

theorem get_root_eq_of_column (same : t.column i name = u.column j name) :
    t.get (t.root i) name line = u.get (u.root j) name line :=
  get_eq_of_column (by rw [column_root, column_root, same])

theorem getAt_eq_of_column (same : t.column i name = u.column j name) :
    t.getAt i d name line = u.getAt j d name line := by
  have depth : (t.chain i).length = (u.chain j).length := by
    simpa using congrArg List.length same
  have place : (t.column i name)[d]? = (u.column j name)[d]? := by rw [same]
  rw [getElem?_column, getElem?_column] at place
  cases inner : (t.chain i)[d]? with
  | none =>
    have ended : (u.chain j)[d]? = none := by
      rw [inner] at place
      exact Option.map_eq_none_iff.1 place.symm
    simp only [getAt, ancestor, inner, ended, depth, bind, Except.bind]
  | some k =>
    rw [inner, Option.map_some] at place
    obtain ⟨l, reached, bound⟩ := Option.map_eq_some_iff.1 place.symm
    simp only [getAt, ancestor, inner, reached, bind, Except.bind, bound]

theorem find?_define (t : ScopeTree) (j : Nat) (name : String) (v : Value) (k : Nat)
    (x : String) : ((t.define j name v).bindings k).find? x =
      if j < t.size ∧ k = j ∧ x = name then some v else (t.bindings k).find? x := by
  by_cases at_scope : k = j
  · subst at_scope
    by_cases inside : k < t.size
    · rw [bindings_define_self t name v inside, Table.find?_insert]
      simp [inside]
    · have none : t.scopes[k]? = none := Array.getElem?_eq_none (Nat.not_lt.1 inside)
      simp [inside, bindings, define, Array.getElem?_modify, none]
  · rw [bindings_define_of_ne t name v at_scope]
    simp [at_scope]

theorem column_define_of_ne (h : other ≠ name) :
    (t.define j name v).column i other = t.column i other := by
  simp only [column, chain_define, find?_define, h, and_false, if_false]

theorem column_define (inside : i < t.size) (place : (t.chain i)[d]? = some j) :
    (t.define j name v).column i name = (t.column i name).set d (some v) := by
  have member : j < t.size :=
    Nat.lt_of_le_of_lt (le_of_mem_chain (List.mem_of_getElem? place)) inside
  obtain ⟨bound, -⟩ := List.getElem?_eq_some_iff.1 place
  apply List.ext_getElem?
  intro n
  rw [getElem?_column, chain_define, List.getElem?_set, length_column, getElem?_column]
  by_cases here : d = n
  · subst here
    rw [if_pos rfl, if_pos bound, place, Option.map_some, find?_define,
      if_pos ⟨member, rfl, rfl⟩]
  · rw [if_neg here]
    cases there : (t.chain i)[n]? with
    | none => rfl
    | some k =>
      -- No scope stands twice on a chain.
      have apart : k ≠ j := by
        rintro rfl
        exact here ((List.getElem?_inj bound (nodup_chain t i)).1 (place.trans there.symm))
      simp [find?_define, apart]

/-- The place on the chain that a write by name reaches: the innermost entry of the column
that is bound, or the last entry. -/
def writePlace (column : List (Option Value)) : Nat :=
  (column.findIdx? Option.isSome).getD (column.length - 1)

theorem chain_writePlace (t : ScopeTree) (i : Nat) (name : String) :
    (t.chain i)[writePlace (t.column i name)]? =
      some ((t.binder? i name).getD (t.root i)) := by
  have search : (t.column i name).findIdx? Option.isSome =
      (t.chain i).findIdx? fun j => (t.bindings j).contains name := by
    rw [column, List.findIdx?_map]
    rfl
  have binder : t.binder? i name =
      ((t.chain i).findIdx? fun j => (t.bindings j).contains name).bind ((t.chain i)[·]?) :=
    List.find?_eq_bind_findIdx?_getElem?
  rw [writePlace, search, length_column, binder]
  cases found : (t.chain i).findIdx? fun j => (t.bindings j).contains name with
  | none => simp [← List.getLast?_eq_getElem?, getLast?_chain]
  | some d =>
    obtain ⟨bound, -⟩ := List.findIdx?_eq_some_iff_getElem.1 found
    simp [bound]

end ScopedExpr.ScopeTree
