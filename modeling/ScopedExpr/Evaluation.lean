import ScopedExpr.LexicalDistance
import ScopedExpr.OperatorMeaning
import ScopedExpr.ScopeTree

/-!
# Evaluation

A session holds a tree of scopes, the global and the active scope in it, and the
distances of resolved references. Evaluation reads and writes variables by a way of
access: by distance where a reference is resolved, or by name along the chain. What
a step has written stays written when it fails.
-/

namespace ScopedExpr

structure Session where
  scopes : ScopeTree
  globals : Nat
  active : Nat
  locals : Locals

/-- A step that may change the session and may fail. -/
abbrev Evaluating := EStateM EvalError Session

namespace Session

def start (locals : Locals) : Session where
  scopes := ScopeTree.empty.addRoot
  globals := 0
  active := 0
  locals := locals

def chain (s : Session) : List Nat := s.scopes.chain s.active

def openBlock (s : Session) : Session :=
  { s with scopes := s.scopes.addChild s.active, active := s.scopes.size }

def closeBlock : Evaluating Unit := do
  let s ← get
  match s.scopes.enclosing? s.active with
  | some outer => set { s with active := outer }
  | none => throw (.internal .noOpenBlock none)

theorem run_closeBlock_eq_ok_iff {s s' : Session} :
    closeBlock.run s = .ok () s' ↔
      ∃ outer, s.scopes.enclosing? s.active = some outer ∧ s' = { s with active := outer } := by
  simp only [closeBlock, EStateM.run_bind, EStateM.run_get]
  cases s.scopes.enclosing? s.active with
  | none => simp
  | some outer => simp [eq_comm]

theorem run_closeBlock_eq_error_iff {s s' : Session} {e : EvalError} :
    closeBlock.run s = .error e s' ↔
      s.scopes.enclosing? s.active = none ∧ e = .internal .noOpenBlock none ∧ s' = s := by
  simp only [closeBlock, EStateM.run_bind, EStateM.run_get]
  cases s.scopes.enclosing? s.active with
  | none => simp [eq_comm]
  | some outer => simp

def define (s : Session) (name : String) (value : Value) : Session :=
  { s with scopes := s.scopes.define s.active name value }

def noteLocal (s : Session) (id distance : Nat) : Session :=
  { s with locals := s.locals.insert id distance }

end Session

namespace Evaluating

def ofExcept {α : Type} : Except EvalError α → Evaluating α
  | .ok a => pure a
  | .error e => throw e

def inScopes {α : Type} (x : Scoping α) : Evaluating α := fun s =>
  match x.run s.scopes with
  | .ok a scopes => .ok a { s with scopes }
  | .error e scopes => .error e { s with scopes }

theorem run_inScopes {α : Type} (x : Scoping α) (s : Session) :
    (inScopes x).run s =
      match x.run s.scopes with
      | .ok a scopes => .ok a { s with scopes }
      | .error e scopes => .error e { s with scopes } := rfl

end Evaluating

/-- A way to read and to write the variable of a reference. -/
structure Access where
  read : Session → Nat → Token → Except EvalError Value
  write : Nat → Token → Value → Evaluating Unit

namespace Access

def dynamic : Access where
  read s _ name := s.scopes.get s.active name.lexeme name.line
  write _ name value :=
    modify fun s => { s with scopes := s.scopes.assign s.active name.lexeme value }

/-- Read and write at the distance of the reference. One without a distance is read as
a global and written by name. -/
def resolved : Access where
  read s id name :=
    match s.locals.find? id with
    | some distance => s.scopes.getAt s.active distance name.lexeme name.line
    | none => s.scopes.get s.globals name.lexeme name.line
  write id name value := do
    let s ← get
    match s.locals.find? id with
    | some distance =>
      Evaluating.inScopes (ScopeTree.writeAt s.active distance name.lexeme value name.line)
    | none => dynamic.write id name value

section Resolved

variable {s : Session} {id distance : Nat} {name : Token} {v : Value} {scopes : ScopeTree}

theorem run_resolved_write_of_ok (noted : s.locals.find? id = some distance)
    (done : (ScopeTree.writeAt s.active distance name.lexeme v name.line).run s.scopes =
      .ok () scopes) :
    (resolved.write id name v).run s = .ok () { s with scopes } := by
  simp only [resolved, EStateM.run_bind, EStateM.run_get, noted]
  rw [Evaluating.run_inScopes, done]

theorem run_resolved_write_of_error {err : EvalError} (noted : s.locals.find? id = some distance)
    (failed : (ScopeTree.writeAt s.active distance name.lexeme v name.line).run s.scopes =
      .error err scopes) :
    (resolved.write id name v).run s = .error err { s with scopes } := by
  simp only [resolved, EStateM.run_bind, EStateM.run_get, noted]
  rw [Evaluating.run_inScopes, failed]

theorem run_resolved_write_of_none (unnoted : s.locals.find? id = none) :
    (resolved.write id name v).run s =
      .ok () { s with scopes := s.scopes.assign s.active name.lexeme v } := by
  simp only [resolved, EStateM.run_bind, EStateM.run_get, unnoted]
  rfl

end Resolved

end Access

namespace Evaluating

def read (access : Access) (id : Nat) (name : Token) : Evaluating Value := do
  ofExcept (access.read (← get) id name)

@[simp] theorem run_ofExcept_ok {α : Type} (a : α) (s : Session) :
    (ofExcept (.ok a)).run s = .ok a s := rfl

@[simp] theorem run_ofExcept_error {α : Type} (e : EvalError) (s : Session) :
    (ofExcept (.error e) : Evaluating α).run s = .error e s := rfl

theorem run_read (access : Access) (id : Nat) (name : Token) (s : Session) :
    (read access id name).run s = (ofExcept (access.read s id name)).run s := rfl

end Evaluating

/-- The value of an expression. Operands are evaluated from left to right; no value has
properties or fields, which shows once the object is evaluated. -/
def Expr.evaluate (access : Access) : Expr → Evaluating Value
  | .literal value => return value
  | .grouping inner => inner.evaluate access
  | .reference id name => Evaluating.read access id name
  | .assign id name value => do
    let v ← value.evaluate access
    access.write id name v
    return v
  | .get object name => do
    let _ ← object.evaluate access
    throw (.runtime .noProperties name.line)
  | .set object name _ => do
    let _ ← object.evaluate access
    throw (.runtime .noFields name.line)
  | .unary operator operand => do
    let v ← operand.evaluate access
    Evaluating.ofExcept (applyUnary operator v)
  | .binary left operator right => do
    let a ← left.evaluate access
    let b ← right.evaluate access
    Evaluating.ofExcept (applyBinary operator a b)
  | .logical left operator right => do
    let a ← left.evaluate access
    if decidesLogical operator a then return a else right.evaluate access

namespace Session

def evaluate (access : Access) (s : Session) (e : Expr) : Except EvalError Value × Session :=
  match (e.evaluate access).run s with
  | .ok v s' => (.ok v, s')
  | .error err s' => (.error err, s')

variable {access : Access} {s s' : Session} {e : Expr}

theorem evaluate_eq_ok_iff {v : Value} :
    s.evaluate access e = (.ok v, s') ↔ (e.evaluate access).run s = .ok v s' := by
  unfold evaluate
  cases (e.evaluate access).run s <;> simp

theorem evaluate_eq_error_iff {err : EvalError} :
    s.evaluate access e = (.error err, s') ↔ (e.evaluate access).run s = .error err s' := by
  unfold evaluate
  cases (e.evaluate access).run s <;> simp

section Operators

variable {left right : Expr} {operator : Token} {s₁ s₂ : Session} {a b : Value} {err : EvalError}

theorem evaluate_unary_of_ok (h : s.evaluate access e = (.ok a, s₁)) :
    s.evaluate access (.unary operator e) = (applyUnary operator a, s₁) := by
  rw [evaluate_eq_ok_iff] at h
  simp only [evaluate, Expr.evaluate, EStateM.run_bind, h]
  cases applyUnary operator a <;> rfl

theorem evaluate_unary_of_error (h : s.evaluate access e = (.error err, s₁)) :
    s.evaluate access (.unary operator e) = (.error err, s₁) := by
  rw [evaluate_eq_error_iff] at h
  simp only [evaluate, Expr.evaluate, EStateM.run_bind, h]

theorem evaluate_binary_of_ok (hl : s.evaluate access left = (.ok a, s₁))
    (hr : s₁.evaluate access right = (.ok b, s₂)) :
    s.evaluate access (.binary left operator right) = (applyBinary operator a b, s₂) := by
  rw [evaluate_eq_ok_iff] at hl hr
  simp only [evaluate, Expr.evaluate, EStateM.run_bind, hl, hr]
  cases applyBinary operator a b <;> rfl

theorem evaluate_binary_of_error_left (hl : s.evaluate access left = (.error err, s₁)) :
    s.evaluate access (.binary left operator right) = (.error err, s₁) := by
  rw [evaluate_eq_error_iff] at hl
  simp only [evaluate, Expr.evaluate, EStateM.run_bind, hl]

theorem evaluate_binary_of_error_right (hl : s.evaluate access left = (.ok a, s₁))
    (hr : s₁.evaluate access right = (.error err, s₂)) :
    s.evaluate access (.binary left operator right) = (.error err, s₂) := by
  rw [evaluate_eq_ok_iff] at hl
  rw [evaluate_eq_error_iff] at hr
  simp only [evaluate, Expr.evaluate, EStateM.run_bind, hl, hr]

end Operators

end Session

end ScopedExpr
