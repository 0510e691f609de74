import ScopedExpr.Proofs.NameAndDistance

/-!
# Isolation of writes

A write sets one name in one scope: the given scope, the one that an assignment reaches or the
one at a distance. Everything else in the tree is as before, and a read changes only where the
written scope is now the innermost binder of the name. Hence a scope and its copy, which lie
inside the same scope, never see the writes to each other's own bindings, and both see what is
written outside of them.
-/

namespace ScopedExpr

namespace ScopeTree

def Innermost (t : ScopeTree) (i : Nat) (name : String) (w : Nat) : Prop :=
  ∃ k, IsLeast {d | t.BindsAt i name d} k ∧ t.Hops k i w

/-- Where an assignment is made: in the innermost binder, or in the root if nothing binds the
name. -/
def AssignedIn (t : ScopeTree) (i : Nat) (name : String) (w : Nat) : Prop :=
  t.Innermost i name w ∨
    (∀ d, ¬ t.BindsAt i name d) ∧ ∃ n, t.Hops n i w ∧ t.enclosing? w = none

/-- One name is set in one scope, and all else is as before. -/
structure Writes (t : ScopeTree) (w : Nat) (name : String) (v : Value) (u : ScopeTree) :
    Prop where
  inside : w < t.size
  size : u.size = t.size
  enclosing : ∀ j, u.enclosing? j = t.enclosing? j
  written : (u.bindings w).find? name = some v
  kept : ∀ x, x ≠ name → (u.bindings w).find? x = (t.bindings w).find? x
  others : ∀ j, j ≠ w → u.bindings j = t.bindings j

/-- Two scopes inside the same one, each with its own bindings. -/
structure Twins (t : ScopeTree) (a b : Nat) : Prop where
  left : a < t.size
  right : b < t.size
  apart : a ≠ b
  enclosing : t.enclosing? a = t.enclosing? b

/-- Writes to one scope do not show in the other, and an assignment that passes one of them
shows in it and, unless the other one binds the name, in both. -/
structure Separated (t : ScopeTree) (a b : Nat) : Prop where
  enclosing : t.enclosing? a = t.enclosing? b
  own : ∀ name v u, t.Writes a name v u →
    u.bindings b = t.bindings b ∧ ∀ x line, u.get b x line = t.get b x line
  shared : ∀ name v p, t.enclosing? a = some p → (t.bindings a).contains name = false →
    t.assign a name v = t.assign p name v ∧
    (∀ line, (t.assign a name v).get a name line = .ok v) ∧
    ((t.bindings b).contains name = false →
      ∀ line, (t.assign a name v).get b name line = .ok v)

variable {t u : ScopeTree} {i j w f a b d line : Nat} {name x : String} {v : Value}

theorem innermost_iff : t.Innermost i name w ↔ t.binder? i name = some w := by
  rw [binder?, List.find?_eq_some_iff_getElem]
  constructor
  · rintro ⟨k, least, hops⟩
    obtain ⟨j, hops', bound⟩ := bindsAt_iff.1 least.1
    cases hops.unique hops'
    obtain ⟨within, place⟩ := List.getElem?_eq_some_iff.1 (hops_iff.1 hops)
    refine ⟨bound, k, within, place, fun d before => ?_⟩
    rw [Bool.not_eq_true', Bool.eq_false_iff]
    intro earlier
    have there := hops_iff.2 (List.getElem?_eq_getElem (Nat.lt_trans before within))
    exact Nat.not_le.2 before (least.2 (bindsAt_iff.2 ⟨_, there, earlier⟩))
  · rintro ⟨bound, k, within, place, before⟩
    have hops := hops_iff.2 (List.getElem?_eq_some_iff.2 ⟨within, place⟩)
    refine ⟨k, ⟨bindsAt_iff.2 ⟨w, hops, bound⟩, fun d there => ?_⟩, hops⟩
    obtain ⟨j, hops', found⟩ := bindsAt_iff.1 there
    obtain ⟨_, rfl⟩ := List.getElem?_eq_some_iff.1 (hops_iff.1 hops')
    refine Nat.le_of_not_lt fun earlier => ?_
    simpa [found] using before d earlier

theorem unbound_iff : (∀ d, ¬ t.BindsAt i name d) ↔ t.binder? i name = none := by
  simp only [bindsAt_iff, hops_iff, binder?, List.find?_eq_none, List.mem_iff_getElem?]
  constructor
  · rintro free j ⟨d, there⟩ bound
    exact free d ⟨j, there, bound⟩
  · rintro free d ⟨j, there, bound⟩
    exact free j ⟨d, there⟩ bound

theorem hops_root_iff : (∃ n, t.Hops n i w ∧ t.enclosing? w = none) ↔ w = t.root i := by
  constructor
  · rintro ⟨n, hops, top⟩
    rw [← hops.root_eq, root_of_none top]
  · rintro rfl
    obtain ⟨n, links⟩ := t.exists_links i
    exact ⟨n, links.hops_root, enclosing?_root t i⟩

theorem assignedIn_iff : t.AssignedIn i name w ↔ w = (t.binder? i name).getD (t.root i) := by
  rw [AssignedIn, innermost_iff, unbound_iff, hops_root_iff]
  cases t.binder? i name with
  | none => simp
  | some j => simp [eq_comm]

theorem get_of_find? (binder : t.binder? i name = some j)
    (bound : (t.bindings j).find? name = some v) : t.get i name line = .ok v := by
  obtain ⟨w, found, read⟩ : ∃ w, (t.bindings j).find? name = some w ∧
    t.get i name line = .ok w := get_of_binder? binder
  rw [read, Option.some.inj (found.symm.trans bound)]

theorem AssignedIn.le (h : t.AssignedIn i name w) : w ≤ i := by
  obtain ⟨k, -, hops⟩ | ⟨-, n, hops, -⟩ := h
  · exact hops.le
  · exact hops.le

theorem writes_define (inside : w < t.size) (name : String) (v : Value) :
    t.Writes w name v (t.define w name v) where
  inside := inside
  size := size_define t w name v
  enclosing j := enclosing?_define t w j name v
  written := by rw [find?_define, if_pos ⟨inside, rfl, rfl⟩]
  kept x other := by rw [find?_define, if_neg fun same => other same.2.2]
  others j apart := bindings_define_of_ne t name v apart

namespace Writes

theorem contains (h : t.Writes w name v u) : (u.bindings w).contains name = true :=
  Option.isSome_of_eq_some h.written

theorem hops_iff (h : t.Writes w name v u) : u.Hops d i j ↔ t.Hops d i j := by
  rw [ScopeTree.hops_iff, ScopeTree.hops_iff, chain_congr h.enclosing]

theorem get_of_ne (h : t.Writes w name v u) (other : x ≠ name) :
    u.get f x line = t.get f x line := by
  refine get_eq_of_column ?_
  rw [column, column, chain_congr h.enclosing]
  refine List.map_congr_left fun j _ => ?_
  by_cases here : j = w
  · rw [here, h.kept x other]
  · rw [h.others j here]

/-- Where the written scope is not the innermost binder, the innermost binder is as before. -/
theorem binder?_of_ne (h : t.Writes w name v u) (other : u.binder? f name ≠ some w) :
    u.binder? f name = t.binder? f name := by
  have apart {k : Nat} (elsewhere : u.binder? k name ≠ some w) : u.bindings k = t.bindings k := by
    refine h.others k ?_
    rintro rfl
    exact elsewhere (binder?_of_bound h.contains)
  fun_induction t.chain f with
  | case1 f top =>
    rw [binder?_of_none top, binder?_of_none ((h.enclosing f).trans top), apart other]
  | case2 f p up ih =>
    have same := apart other
    rw [binder?_of_some ((h.enclosing f).trans up)] at other ⊢
    rw [binder?_of_some up, same]
    split
    · rfl
    · next free =>
      rw [same, if_neg free] at other
      exact ih other

theorem get_of_binder?_ne (h : t.Writes w name v u) (other : u.binder? f name ≠ some w) :
    u.get f name line = t.get f name line := by
  have same := h.binder?_of_ne other
  cases binder : t.binder? f name with
  | none => rw [get_of_binder?_none binder, get_of_binder?_none (same.trans binder)]
  | some k =>
    have apart : k ≠ w := by
      rintro rfl
      exact other (same.trans binder)
    obtain ⟨value, bound⟩ := Option.isSome_iff_exists.1 (contains_of_binder? binder)
    have bound' : (u.bindings k).find? name = some value := by rw [h.others k apart, bound]
    rw [get_of_find? binder bound, get_of_find? (same.trans binder) bound']

theorem get_of_binder? (h : t.Writes w name v u) (binder : u.binder? f name = some w) :
    u.get f name line = .ok v :=
  get_of_find? binder h.written

/-- A read changes only where the written scope is now the innermost binder of the name. -/
theorem get_frame (h : t.Writes w name v u) (f : Nat) (x : String) (line : Nat) :
    (x = name ∧ u.Innermost f name w → u.get f x line = .ok v) ∧
      (¬ (x = name ∧ u.Innermost f name w) → u.get f x line = t.get f x line) := by
  rw [innermost_iff]
  constructor
  · rintro ⟨rfl, binder⟩
    exact h.get_of_binder? binder
  · intro elsewhere
    by_cases same : x = name
    · subst same
      exact h.get_of_binder?_ne fun binder => elsewhere ⟨rfl, binder⟩
    · exact h.get_of_ne same

end Writes

theorem Writes.innermost_of_assignedIn (h : t.Writes w name v u)
    (reached : t.AssignedIn i name w) : u.Innermost i name w := by
  rw [innermost_iff]
  refine Decidable.byContradiction fun other => ?_
  have same := h.binder?_of_ne other
  obtain innermost | ⟨unbound, n, hops, -⟩ := reached
  · exact other (same.trans (innermost_iff.1 innermost))
  · have free := unbound_iff.2 (same.trans (unbound_iff.1 unbound))
    exact free n (bindsAt_iff.2 ⟨w, h.hops_iff.2 hops, h.contains⟩)

theorem writes_assign (inside : i < t.size) (name : String) (v : Value) :
    ∃ w, (∀ j, t.AssignedIn i name j ↔ j = w) ∧ t.Writes w name v (t.assign i name v) := by
  refine ⟨_, fun j => assignedIn_iff, writes_define ?_ name v⟩
  exact Nat.lt_of_le_of_lt (assignedIn_iff.2 rfl).le inside

theorem get_assign (inside : i < t.size) (name : String) (v : Value) (line : Nat) :
    (t.assign i name v).get i name line = .ok v := by
  obtain ⟨w, reached, writes⟩ := writes_assign inside name v
  have innermost := writes.innermost_of_assignedIn ((reached w).2 rfl)
  exact writes.get_of_binder? (innermost_iff.1 innermost)

theorem writes_assignAt (inside : i < t.size) (done : t.assignAt i d name v line = .ok u) :
    ∃ w, t.ancestor i d line = .ok w ∧ t.Writes w name v u := by
  obtain ⟨n, links⟩ := t.exists_links i
  obtain ⟨w, there, rfl⟩ := ((links.exactAt line).assignAt_ok d name v u).1 done
  have outward := (ancestor_eq_ok_iff.1 there).le
  exact ⟨w, there, writes_define (Nat.lt_of_le_of_lt outward inside) name v⟩

theorem size_le_after (t : ScopeTree) (op : Operation) : t.size ≤ (t.after op).size := by
  have performed := t.performed op
  rw [after]
  generalize (perform op).run t = result at performed ⊢
  cases performed with
  | refused => exact Nat.le_refl _
  | told => exact Nat.le_refl _
  | defined => exact Nat.le_of_eq (size_define _ _ _ _).symm
  | added => exact Nat.le_of_lt ((size_add t _ _).symm ▸ Nat.lt_succ_self _)

/-- No operation changes a link. -/
theorem enclosing?_after (inside : i < t.size) (op : Operation) :
    (t.after op).enclosing? i = t.enclosing? i := by
  have performed := t.performed op
  rw [after]
  generalize (perform op).run t = result at performed ⊢
  cases performed with
  | refused => rfl
  | told => rfl
  | defined => exact enclosing?_define _ _ _ _ _
  | added => exact enclosing?_add_of_lt t _ _ inside

namespace Twins

theorem symm (h : t.Twins a b) : t.Twins b a :=
  ⟨h.right, h.left, h.apart.symm, h.enclosing.symm⟩

theorem addCopy (inside : i < t.size) : (t.addCopy i).Twins i t.size where
  left := by
    rw [ScopeTree.addCopy, size_add]
    exact Nat.lt_succ_of_lt inside
  right := by
    rw [ScopeTree.addCopy, size_add]
    exact Nat.lt_succ_self _
  apart := Nat.ne_of_lt inside
  enclosing := by
    rw [ScopeTree.addCopy, enclosing?_add_of_lt t _ _ inside, enclosing?_add_size]
    cases up : t.enclosing? i with
    | none => rfl
    | some p =>
      have older : p < t.size := Nat.lt_trans (enclosing?_lt up) inside
      rw [Option.filter_some, decide_eq_true older, if_pos rfl]

theorem after (h : t.Twins a b) (op : Operation) : (t.after op).Twins a b where
  left := Nat.lt_of_lt_of_le h.left (size_le_after t op)
  right := Nat.lt_of_lt_of_le h.right (size_le_after t op)
  apart := h.apart
  enclosing := by
    rw [enclosing?_after h.left op, enclosing?_after h.right op, h.enclosing]

theorem behind (h : t.Twins a b) (ops : List Operation) : (t.behind ops).Twins a b := by
  induction ops generalizing t with
  | nil => exact h
  | cons op ops ih => exact ih (h.after op)

theorem not_hops (h : t.Twins a b) : ¬ t.Hops d b a := by
  intro hops
  cases hops with
  | here => exact h.apart rfl
  | outward up rest => exact Nat.not_lt.2 rest.le (enclosing?_lt (h.enclosing.trans up))

theorem separated (h : t.Twins a b) : t.Separated a b where
  enclosing := h.enclosing
  own name v u writes := by
    refine ⟨writes.others b h.apart.symm, fun x line => (writes.get_frame b x line).2 ?_⟩
    rintro ⟨-, k, -, hops⟩
    exact h.not_hops (writes.hops_iff.1 hops)
  shared name v p up free := by
    refine ⟨assign_of_unbound up free v, get_assign h.left name v, fun free' line => ?_⟩
    rw [assign_of_unbound up free, ← assign_of_unbound (h.enclosing.symm.trans up) free']
    exact get_assign h.right name v line

end Twins

end ScopeTree

/-- A write sets one name in one scope of a tree, whatever has been done to the tree before, and
is seen exactly where the written scope is now the innermost binder of the name. A scope and its
copy see each other's writes only through the scope that encloses both. -/
theorem write_isolation {t : ScopeTree} {i : Nat} (inside : i < t.size) :
    (∀ name v, t.Writes i name v (t.define i name v)) ∧
    (∀ name v, ∃ w, (∀ j, t.AssignedIn i name j ↔ j = w) ∧
      t.Writes w name v (t.assign i name v) ∧
      ∀ line, (t.assign i name v).get i name line = .ok v) ∧
    (∀ d name v line u, t.assignAt i d name v line = .ok u →
      ∃ w, t.ancestor i d line = .ok w ∧ t.Writes w name v u) ∧
    (∀ w name v u, t.Writes w name v u → ∀ f x line,
      (x = name ∧ u.Innermost f name w → u.get f x line = .ok v) ∧
      (¬ (x = name ∧ u.Innermost f name w) → u.get f x line = t.get f x line)) ∧
    (t.addCopy i).bindings t.size = t.bindings i ∧
    ∀ ops, ((t.addCopy i).behind ops).Separated i t.size ∧
      ((t.addCopy i).behind ops).Separated t.size i := by
  refine ⟨ScopeTree.writes_define inside, fun name v => ?_,
    fun d name v line u => ScopeTree.writes_assignAt inside,
    fun w name v u writes => writes.get_frame, ScopeTree.bindings_add_size t _ _, fun ops => ?_⟩
  · obtain ⟨w, reached, writes⟩ := ScopeTree.writes_assign inside name v
    exact ⟨w, reached, writes, ScopeTree.get_assign inside name v⟩
  · have twins := (ScopeTree.Twins.addCopy inside).behind ops
    exact ⟨twins.separated, twins.symm.separated⟩

/-- The innermost scope of the shadowed ones has a copy, the scope after it. -/
def copiedScopes : ScopeTree := shadowedScopes.addCopy 2

theorem copiedScopes_isolated :
    2 < shadowedScopes.size ∧
      (shadowedScopes.assign 2 "x" .none).get 2 "x" 7 = .ok .none ∧
      (∃ w, (∀ j, shadowedScopes.AssignedIn 2 "x" j ↔ j = w) ∧
        shadowedScopes.Writes w "x" .none (shadowedScopes.assign 2 "x" .none)) ∧
      (copiedScopes.define 3 "x" .none).get 2 "x" 7 = copiedScopes.get 2 "x" 7 ∧
      (copiedScopes.define 2 "x" .none).get 3 "x" 7 = copiedScopes.get 3 "x" 7 ∧
      (copiedScopes.assign 3 "x" .none).get 2 "x" 7 = .ok .none := by
  have inside : 2 < shadowedScopes.size := by decide
  obtain ⟨-, assigned, -, -, -, copied⟩ := write_isolation inside
  obtain ⟨w, reached, writes, read⟩ := assigned "x" .none
  have original : copiedScopes.Separated 2 3 := (copied []).1
  have copy : copiedScopes.Separated 3 2 := (copied []).2
  have own (i : Nat) (within : i < copiedScopes.size) :=
    ScopeTree.writes_define within "x" Value.none
  exact ⟨inside, read 7, ⟨w, reached, writes⟩,
    (copy.own _ _ _ (own 3 (by decide))).2 "x" 7, (original.own _ _ _ (own 2 (by decide))).2 "x" 7,
    (copy.shared "x" .none 1 rfl rfl).2.2 rfl 7⟩

end ScopedExpr
