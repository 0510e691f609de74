import ScopedExpr.BindingTable
import ScopedExpr.EvaluationFault

/-!
# Trees of scopes

Scopes are numbered in the order of their making, and a scope is enclosed by an older
one or by none. The chain of a scope leads outward to its root. A name is looked up in
the innermost scope of the chain that binds it, or in the scope at a given distance on
the chain. A write reaches every scope that shares the written one.
-/

namespace ScopedExpr

structure Scope where
  bindings : Table String Value := .empty
  enclosing : Option Nat := none

/-- Scopes that enclose each other; enclosing scopes come earlier. -/
structure ScopeTree where
  scopes : Array Scope
  enclosing_lt : ∀ (i : Nat) (s : Scope) (p : Nat),
    scopes[i]? = some s → s.enclosing = some p → p < i

/-- A step that may change the scopes and may fail; what it has changed stays changed then. -/
abbrev Scoping := EStateM EvalError ScopeTree

namespace ScopeTree

def empty : ScopeTree := ⟨#[], by simp⟩

def size (t : ScopeTree) : Nat := t.scopes.size

def bindings (t : ScopeTree) (i : Nat) : Table String Value :=
  ((t.scopes[i]?).map Scope.bindings).getD .empty

def enclosing? (t : ScopeTree) (i : Nat) : Option Nat := (t.scopes[i]?).bind Scope.enclosing

theorem enclosing?_lt {t : ScopeTree} {i p : Nat} (h : t.enclosing? i = some p) : p < i := by
  obtain ⟨s, hs, hp⟩ := Option.bind_eq_some_iff.1 h
  exact t.enclosing_lt i s p hs hp

/-- The scopes from a scope outward to its root. -/
def chain (t : ScopeTree) (i : Nat) : List Nat :=
  match _h : t.enclosing? i with
  | none => [i]
  | some p => i :: t.chain p
termination_by i
decreasing_by exact enclosing?_lt _h

def root (t : ScopeTree) (i : Nat) : Nat :=
  match _h : t.enclosing? i with
  | none => i
  | some p => t.root p
termination_by i
decreasing_by exact enclosing?_lt _h

theorem chain_of_none {t : ScopeTree} {i : Nat} (h : t.enclosing? i = none) : t.chain i = [i] := by
  rw [chain]
  split <;> simp_all

theorem chain_of_some {t : ScopeTree} {i p : Nat} (h : t.enclosing? i = some p) :
    t.chain i = i :: t.chain p := by
  rw [chain]
  split <;> simp_all

theorem head?_chain (t : ScopeTree) (i : Nat) : (t.chain i).head? = some i := by
  rw [chain]
  split <;> rfl

theorem getLast?_chain (t : ScopeTree) (i : Nat) : (t.chain i).getLast? = some (t.root i) := by
  fun_induction t.chain i with
  | case1 i top =>
    rw [root]
    split <;> simp_all
  | case2 i p up ih =>
    rw [root]
    split <;> simp_all [List.getLast?_cons]

def add (t : ScopeTree) (bindings : Table String Value) (enclosing : Option Nat) : ScopeTree where
  scopes := t.scopes.push ⟨bindings, enclosing.filter (· < t.scopes.size)⟩
  enclosing_lt := by
    intro i s p hs hp
    rw [Array.getElem?_push] at hs
    split at hs
    · next hi =>
      cases hs
      obtain ⟨_, hp⟩ := Option.filter_eq_some_iff.1 hp
      simp at hp
      omega
    · exact t.enclosing_lt i s p hs hp

def addRoot (t : ScopeTree) : ScopeTree := t.add .empty none

def addChild (t : ScopeTree) (i : Nat) : ScopeTree := t.add .empty (some i)

def addCopy (t : ScopeTree) (i : Nat) : ScopeTree := t.add (t.bindings i) (t.enclosing? i)

@[simp] theorem size_add (t : ScopeTree) (b : Table String Value) (e : Option Nat) :
    (t.add b e).size = t.size + 1 := by
  simp [add, size]

theorem enclosing?_add_of_lt (t : ScopeTree) (b : Table String Value) (e : Option Nat) {i : Nat}
    (h : i < t.size) : (t.add b e).enclosing? i = t.enclosing? i := by
  have ne : i ≠ t.scopes.size := Nat.ne_of_lt h
  simp [enclosing?, add, Array.getElem?_push, ne]

theorem bindings_add_of_lt (t : ScopeTree) (b : Table String Value) (e : Option Nat) {i : Nat}
    (h : i < t.size) : (t.add b e).bindings i = t.bindings i := by
  have ne : i ≠ t.scopes.size := Nat.ne_of_lt h
  simp [bindings, add, Array.getElem?_push, ne]

theorem enclosing?_add_size (t : ScopeTree) (b : Table String Value) (e : Option Nat) :
    (t.add b e).enclosing? t.size = e.filter (· < t.size) := by
  simp only [enclosing?, add, size, Array.getElem?_push_size]
  rfl

@[simp] theorem bindings_add_size (t : ScopeTree) (b : Table String Value) (e : Option Nat) :
    (t.add b e).bindings t.size = b := by
  simp [bindings, add, size]

theorem chain_add_of_lt (t : ScopeTree) (b : Table String Value) (e : Option Nat) {i : Nat}
    (h : i < t.size) : (t.add b e).chain i = t.chain i := by
  have same := t.enclosing?_add_of_lt b e h
  fun_induction t.chain i with
  | case1 i top => exact chain_of_none (same.trans top)
  | case2 i p up ih =>
    have below : p < t.size := Nat.lt_trans (enclosing?_lt up) h
    rw [chain_of_some (same.trans up), ih below (t.enclosing?_add_of_lt b e below)]

theorem chain_addChild (t : ScopeTree) {i : Nat} (h : i < t.size) :
    (t.addChild i).chain t.size = t.size :: t.chain i := by
  have up : (t.addChild i).enclosing? t.size = some i := by
    simp [addChild, enclosing?_add_size, h]
  rw [chain_of_some up, addChild, chain_add_of_lt t _ _ h]

def define (t : ScopeTree) (i : Nat) (name : String) (value : Value) : ScopeTree where
  scopes := t.scopes.modify i fun s => { s with bindings := s.bindings.insert name value }
  enclosing_lt := by
    intro j s p hs hp
    rw [Array.getElem?_modify] at hs
    split at hs
    · obtain ⟨old, hold, rfl⟩ := Option.map_eq_some_iff.1 hs
      exact t.enclosing_lt j old p hold hp
    · exact t.enclosing_lt j s p hs hp

def binder? (t : ScopeTree) (i : Nat) (name : String) : Option Nat :=
  (t.chain i).find? fun j => (t.bindings j).contains name

def get (t : ScopeTree) (i : Nat) (name : String) (line : Nat) : Except EvalError Value :=
  match (t.chain i).findSome? fun j => (t.bindings j).find? name with
  | some value => .ok value
  | none => .error (.runtime (.undefinedVariable name) line)

/-- Write a name in its innermost binder, or in the root when nothing binds it. -/
def assign (t : ScopeTree) (i : Nat) (name : String) (value : Value) : ScopeTree :=
  t.define ((t.binder? i name).getD (t.root i)) name value

def ancestor (t : ScopeTree) (i distance line : Nat) : Except EvalError Nat :=
  match (t.chain i)[distance]? with
  | some j => .ok j
  | none => .error (.internal (.chainEnded ((t.chain i).length - 1) distance) (some line))

def getAt (t : ScopeTree) (i distance : Nat) (name : String) (line : Nat) :
    Except EvalError Value := do
  let j ← t.ancestor i distance line
  match (t.bindings j).find? name with
  | some value => .ok value
  | none => .error (.runtime (.undefinedVariable name) line)

def writeAt (i distance : Nat) (name : String) (value : Value) (line : Nat) : Scoping Unit := do
  let t ← MonadState.get
  let j ← MonadExcept.ofExcept (t.ancestor i distance line)
  set (t.define j name value)

def assignAt (t : ScopeTree) (i distance : Nat) (name : String) (value : Value) (line : Nat) :
    Except EvalError ScopeTree :=
  match (writeAt i distance name value line).run t with
  | .ok _ u => .ok u
  | .error e _ => .error e

@[simp] theorem size_define (t : ScopeTree) (i : Nat) (name : String) (value : Value) :
    (t.define i name value).size = t.size := by
  simp [define, size]

@[simp] theorem enclosing?_define (t : ScopeTree) (i j : Nat) (name : String) (value : Value) :
    (t.define i name value).enclosing? j = t.enclosing? j := by
  simp only [enclosing?, define, Array.getElem?_modify]
  split
  · cases t.scopes[j]? <;> rfl
  · rfl

@[simp] theorem chain_define (t : ScopeTree) (i j : Nat) (name : String) (value : Value) :
    (t.define i name value).chain j = t.chain j := by
  have same := fun k => t.enclosing?_define i k name value
  fun_induction t.chain j with
  | case1 j top => exact chain_of_none ((same j).trans top)
  | case2 j p up ih => rw [chain_of_some ((same j).trans up), ih]

theorem bindings_define_of_ne (t : ScopeTree) {i j : Nat} (name : String) (value : Value)
    (h : j ≠ i) : (t.define i name value).bindings j = t.bindings j := by
  simp [bindings, define, Array.getElem?_modify, Ne.symm h]

theorem bindings_define_self (t : ScopeTree) {i : Nat} (name : String) (value : Value)
    (h : i < t.size) :
    (t.define i name value).bindings i = (t.bindings i).insert name value := by
  have hi : t.scopes[i]? = some t.scopes[i] := Array.getElem?_eq_getElem h
  simp [bindings, define, Array.getElem?_modify, hi]

end ScopeTree

end ScopedExpr
