import Mathlib.Order.Bounds.Defs
import ScopedExpr.Proofs.ScopeHops

/-!
# Names and distances

By name a scope is found link by link, each asked for the name before the next one; by distance
the links are counted and only the last scope is asked. Both walks end, and they end in the
same scope when the distance is the least one at which the name is bound. A name bound nowhere
on a chain has no distance to be read at, and is written at the distance of the root.
-/

namespace ScopedExpr

namespace ScopeTree

def BindsAt (t : ScopeTree) (i : Nat) (name : String) (d : Nat) : Prop :=
  ∃ j, (∀ line, t.ancestor i d line = .ok j) ∧ (t.bindings j).contains name = true

variable {t : ScopeTree} {i j p d k n line : Nat} {name : String} {v : Value}

theorem bindsAt_iff :
    t.BindsAt i name d ↔ ∃ j, t.Hops d i j ∧ (t.bindings j).contains name = true := by
  simp only [BindsAt, ancestor_eq_ok_iff, forall_const]

theorem bindsAt_zero : t.BindsAt i name 0 ↔ (t.bindings i).contains name = true := by
  rw [bindsAt_iff]
  constructor
  · rintro ⟨j, ⟨⟩, bound⟩
    exact bound
  · intro bound
    exact ⟨i, .here, bound⟩

theorem bindsAt_succ (up : t.enclosing? i = some p) :
    t.BindsAt i name (d + 1) ↔ t.BindsAt p name d := by
  simp only [bindsAt_iff]
  constructor
  · rintro ⟨j, hops, bound⟩
    cases hops with
    | outward up' rest =>
      cases up.symm.trans up'
      exact ⟨j, rest, bound⟩
  · rintro ⟨j, hops, bound⟩
    exact ⟨j, .outward up hops, bound⟩

theorem binder?_of_bound (bound : (t.bindings i).contains name = true) :
    t.binder? i name = some i := by
  obtain ⟨outer, chain⟩ := List.head?_eq_some_iff.1 (head?_chain t i)
  rw [binder?, chain]
  exact List.find?_cons_of_pos bound

theorem binder?_of_none (top : t.enclosing? i = none) :
    t.binder? i name = if (t.bindings i).contains name then some i else none := by
  rw [binder?, chain_of_none top, List.find?_singleton]

theorem get_of_bound (bound : (t.bindings i).find? name = some v) :
    t.get i name line = .ok v := by
  obtain ⟨outer, chain⟩ := List.head?_eq_some_iff.1 (head?_chain t i)
  rw [get, chain, List.findSome?_cons, bound]

theorem get_of_unbound (up : t.enclosing? i = some p)
    (free : (t.bindings i).contains name = false) : t.get i name line = t.get p name line := by
  refine get_eq_of_binder?_eq ?_
  rw [binder?_of_some up, free, if_neg Bool.false_ne_true]

theorem get_of_unbound_root (top : t.enclosing? i = none)
    (free : (t.bindings i).contains name = false) :
    t.get i name line = .error (.runtime (.undefinedVariable name) line) := by
  refine get_of_binder?_none ?_
  rw [binder?_of_none top, free, if_neg Bool.false_ne_true]

theorem assign_of_bound (bound : (t.bindings i).contains name = true) (v : Value) :
    t.assign i name v = t.define i name v := by
  rw [assign, binder?_of_bound bound, Option.getD_some]

theorem assign_of_unbound (up : t.enclosing? i = some p)
    (free : (t.bindings i).contains name = false) (v : Value) :
    t.assign i name v = t.assign p name v := by
  rw [assign, assign, binder?_of_some up, root_of_some up, free, if_neg Bool.false_ne_true]

theorem assign_of_unbound_root (top : t.enclosing? i = none)
    (free : (t.bindings i).contains name = false) (v : Value) :
    t.assign i name v = t.define i name v := by
  rw [assign, binder?_of_none top, free, if_neg Bool.false_ne_true, Option.getD_none,
    root_of_none top]

/-- By name, the scopes before a distance that do not bind the name are passed over. -/
theorem Hops.pass (hops : t.Hops k i j) (free : ∀ d < k, ¬ t.BindsAt i name d) :
    (∀ line, t.get i name line = t.get j name line) ∧
      ∀ v, t.assign i name v = t.assign j name v := by
  induction hops with
  | here => exact ⟨fun _ => rfl, fun _ => rfl⟩
  | outward up rest ih =>
    have first := Bool.eq_false_iff.2 fun bound => free 0 (Nat.succ_pos _) (bindsAt_zero.2 bound)
    obtain ⟨reads, writes⟩ := ih fun d before later =>
      free (d + 1) (Nat.succ_lt_succ before) ((bindsAt_succ up).2 later)
    exact ⟨fun line => (get_of_unbound up first).trans (reads line),
      fun v => (assign_of_unbound up first v).trans (writes v)⟩

theorem get_assign_of_isLeast (least : IsLeast {d | t.BindsAt i name d} k) :
    (∀ line, ∃ w, t.get i name line = .ok w ∧ t.getAt i k name line = .ok w) ∧
      ∀ v line, t.assignAt i k name v line = .ok (t.assign i name v) := by
  obtain ⟨j, hops, bound⟩ := bindsAt_iff.1 least.1
  obtain ⟨w, found⟩ := Option.isSome_iff_exists.1 bound
  obtain ⟨reads, writes⟩ := hops.pass fun d before earlier =>
    Nat.not_le.2 before (least.2 earlier)
  refine ⟨fun line => ⟨w, ?_, getAt_of_chain (hops_iff.1 hops) found⟩, fun v line => ?_⟩
  · rw [reads, get_of_bound found]
  · rw [writes, assign_of_bound bound, assignAt_of_chain (hops_iff.1 hops)]

theorem Links.get_assign_of_unbound (links : t.Links i n) (free : ∀ d, ¬ t.BindsAt i name d) :
    (∀ line, t.get i name line = .error (.runtime (.undefinedVariable name) line)) ∧
      (∀ d line, ∃ err, t.getAt i d name line = .error err) ∧
      ∀ v line, t.assignAt i n name v line = .ok (t.assign i name v) := by
  obtain ⟨r, hops, top⟩ := id links
  obtain ⟨reads, writes⟩ := hops.pass fun d _ => free d
  have last := Bool.eq_false_iff.2 fun bound => free n (bindsAt_iff.2 ⟨r, hops, bound⟩)
  refine ⟨fun line => ?_, fun d line => ?_, fun v line => ?_⟩
  · rw [reads, get_of_unbound_root top last]
  · obtain ⟨-, past⟩ | ⟨j, there, ⟨-, unbound⟩ | ⟨w, found, -⟩⟩ := links.cases_of_getAt d name line
    · exact ⟨_, past⟩
    · exact ⟨_, unbound⟩
    · exact absurd (bindsAt_iff.2 ⟨j, there, Option.isSome_of_eq_some found⟩) (free d)
  · rw [writes, assign_of_unbound_root top last, assignAt_of_chain (hops_iff.1 hops)]

end ScopeTree

/-- Access by name is access at the least distance at which the name is bound, in every tree of
scopes and hence in all that can be made by operations. Where no distance binds the name, every
read fails and the write by name is the write at the distance of the root. -/
theorem name_walk_eq_distance_walk (t : ScopeTree) (i : Nat) (name : String) :
    (∃ n, t.Links i n) ∧
    (∀ k, IsLeast {d | t.BindsAt i name d} k →
      (∀ line, ∃ w, t.get i name line = .ok w ∧ t.getAt i k name line = .ok w) ∧
      ∀ v line, t.assignAt i k name v line = .ok (t.assign i name v)) ∧
    ((∀ d, ¬ t.BindsAt i name d) →
      (∀ line, t.get i name line = .error (.runtime (.undefinedVariable name) line)) ∧
      (∀ d line, ∃ err, t.getAt i d name line = .error err) ∧
      ∀ n, t.Links i n → ∀ v line, t.assignAt i n name v line = .ok (t.assign i name v)) := by
  refine ⟨t.exists_links i, fun k => ScopeTree.get_assign_of_isLeast, fun free => ?_⟩
  obtain ⟨n, links⟩ := t.exists_links i
  obtain ⟨reads, fails, -⟩ := links.get_assign_of_unbound free
  exact ⟨reads, fails, fun m links => (links.get_assign_of_unbound free).2.2⟩

/-- The name is bound in the middle scope and, shadowed, in the root. -/
def shadowedScopes : ScopeTree :=
  (nestedScopes.define 0 "x" (.bool false)).define 1 "x" (.bool true)

theorem shadowedScopes_name_walk :
    IsLeast {d | shadowedScopes.BindsAt 2 "x" d} 1 ∧
      (∃ w, shadowedScopes.get 2 "x" 7 = .ok w ∧ shadowedScopes.getAt 2 1 "x" 7 = .ok w) ∧
      shadowedScopes.assignAt 2 1 "x" .none 7 = .ok (shadowedScopes.assign 2 "x" .none) ∧
      (∀ d, ¬ shadowedScopes.BindsAt 2 "y" d) ∧
      shadowedScopes.get 2 "y" 7 = .error (.runtime (.undefinedVariable "y") 7) ∧
      shadowedScopes.assignAt 2 2 "y" .none 7 = .ok (shadowedScopes.assign 2 "y" .none) := by
  obtain ⟨-, bound, -⟩ := name_walk_eq_distance_walk shadowedScopes 2 "x"
  obtain ⟨-, -, unbound⟩ := name_walk_eq_distance_walk shadowedScopes 2 "y"
  have middle : shadowedScopes.enclosing? 2 = some 1 := rfl
  have least : IsLeast {d | shadowedScopes.BindsAt 2 "x" d} 1 := by
    refine ⟨(ScopeTree.bindsAt_succ middle).2 (ScopeTree.bindsAt_zero.2 rfl), fun d there => ?_⟩
    cases d with
    | zero => cases ScopeTree.bindsAt_zero.1 there
    | succ d => exact Nat.succ_pos d
  have free : ∀ d, ¬ shadowedScopes.BindsAt 2 "y" d := by
    intro d there
    obtain ⟨j, hops, found⟩ := ScopeTree.bindsAt_iff.1 there
    have inside : j ≤ 2 := hops.le
    obtain rfl | rfl | rfl : j = 0 ∨ j = 1 ∨ j = 2 := by omega
    all_goals cases found
  have links : shadowedScopes.Links 2 2 := ⟨0, .outward middle (.outward rfl .here), rfl⟩
  exact ⟨least, (bound 1 least).1 7, (bound 1 least).2 .none 7, free, (unbound free).1 7,
    (unbound free).2.2 2 links .none 7⟩

end ScopedExpr
