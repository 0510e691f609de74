import ScopedExpr.Proofs.PairedRuns
import ScopedExpr.Proofs.ResolvedAccess

/-!
# Programs by distance and by name

The second pass of a program with all distances comes to what it comes to by name, in a
session without any distance. An evaluation keeps the mirror between the chain and the
open blocks, also when it fails, and so does every step; the distances that a step needs
are among the finished ones because no later step notes a number again.
-/

namespace ScopedExpr

/-- From kept sessions, a computation and another one without distances have the same
result and the same session behind it, and what is kept stays. -/
def Evaluating.Agrees {α : Type} (Kept : Session → Prop) (x y : Evaluating α) : Prop :=
  ∀ s, Kept s →
    match x.run s with
    | .ok a s' => y.run s.forget = .ok a s'.forget ∧ Kept s'
    | .error err s' => y.run s.forget = .error err s'.forget ∧ Kept s'

theorem Evaluating.Agrees.of_paired {α : Type} {Kept : Session → Prop} {x y : Evaluating α}
    (paired : Paired (fun s t => Kept s ∧ t = s.forget) x y) : Agrees Kept x y := by
  intro s kept
  have both := paired s s.forget ⟨kept, rfl⟩
  cases run : x.run s with
  | ok a s' =>
    rw [run] at both
    obtain ⟨t', same, kept', rfl⟩ := both
    exact ⟨same, kept'⟩
  | error err s' =>
    rw [run] at both
    obtain ⟨t', same, kept', rfl⟩ := both
    exact ⟨same, kept'⟩

/-- The references of a tree have the distances that blocks give to their names. -/
def Expr.Noted (e : Expr) (locals : Locals) (blocks : List (List String)) : Prop :=
  ∀ id name, (id, name) ∈ e.references →
    locals.find? id = blocks.findIdx? fun block => block.contains name.lexeme

namespace Expr

variable {locals : Locals} {blocks : List (List String)} {e : Expr}

/-- A session that follows blocks reads and writes the references that they give distances
as the same session without distances does by name. -/
theorem Noted.together (noted : e.Noted locals blocks) :
    e.Together (fun s t => s.Follows locals blocks ∧ t = s.forget) .resolved .dynamic where
  reads id name mem := .read fun s t related => by
    obtain ⟨follows, rfl⟩ := related
    exact follows.read_eq (noted id name mem)
  writes id name mem v := .of_runs fun s t related => by
    obtain ⟨follows, rfl⟩ := related
    have target := noted id name ((assignments_sublist e).subset mem)
    obtain ⟨s', resolved, dynamic, follows'⟩ := follows.write_eq target v
    exact .inr ⟨(), s', s'.forget, resolved, dynamic, follows', rfl⟩

/-- A tree whose references have their distances evaluates by distance as by name. -/
theorem agrees_evaluate (noted : e.Noted locals blocks) :
    Evaluating.Agrees (·.Follows locals blocks) (e.evaluate .resolved) (e.evaluate .dynamic) :=
  .of_paired (paired_evaluate noted.together)

end Expr

namespace Session

variable {s : Session} {locals : Locals} {blocks : List (List String)} {e : Expr}

theorem act_evaluate (follows : s.Follows locals blocks) (noted : e.Noted locals blocks) :
    ∃ outcome s', s.act .resolved (.evaluate (.ok e)) = (outcome, s') ∧
      s.forget.act .dynamic (.evaluate (.ok e)) = (outcome, s'.forget) ∧
      s'.Follows locals blocks := by
  have agrees := Expr.agrees_evaluate noted s follows
  simp only [act, Session.evaluate]
  cases run : (e.evaluate .resolved).run s with
  | ok v s' =>
    rw [run] at agrees
    rw [agrees.1]
    exact ⟨_, _, rfl, rfl, agrees.2⟩
  | error err s' =>
    rw [run] at agrees
    rw [agrees.1]
    exact ⟨_, _, rfl, rfl, agrees.2⟩

theorem act_closeBlock (follows : s.Follows locals blocks) (a b : Access) :
    ∃ outcome s', s.act a .closeBlock = (outcome, s') ∧
      s.forget.act b .closeBlock = (outcome, s'.forget) ∧ s'.Follows locals blocks.tail := by
  simp only [act]
  obtain ⟨s', close, forgotten, follows'⟩ | ⟨err, close, forgotten, same⟩ := follows.closeBlock
  · rw [close, forgotten]
    exact ⟨_, _, rfl, rfl, follows'⟩
  · rw [close, forgotten, same]
    exact ⟨_, _, rfl, rfl, follows⟩

theorem perform_prepare (steps : List Step) {reader : TokenReader} {r : Resolution}
    (fresh : r.FreshFrom reader.nextId)
    (follows : s.Follows (prepare steps reader r).2.locals r.blocks) :
    (s.perform .resolved (prepare steps reader r).1).map (fun step => (step.1, step.2.forget)) =
      s.forget.perform .dynamic (prepare steps reader r).1 := by
  induction steps generalizing s reader r with
  | nil => rfl
  | cons step steps ih =>
    cases step with
    | openBlock =>
      have rest := ih (r := r.openBlock) fresh follows.openBlock
      exact congrArg (List.cons (Outcome.done, s.openBlock.forget)) rest
    | closeBlock =>
      obtain ⟨outcome, s', resolved, dynamic, follows'⟩ :=
        act_closeBlock follows .resolved .dynamic
      have rest := ih (r := r.closeBlock) fresh follows'
      simp only [prepare, perform, resolved, dynamic, List.map_cons]
      exact congrArg (List.cons (outcome, s'.forget)) rest
    | define name value =>
      have fresh' : (r.declare name).FreshFrom reader.nextId := by
        intro k le
        rw [← fresh k le, Resolution.declare]
        split <;> rfl
      have rest := ih fresh' (follows.define r rfl name value)
      exact congrArg (List.cons (Outcome.done, (s.define name value).forget)) rest
    | expression =>
      obtain ⟨e, reader', read, numbers⟩ | ⟨err, reader', read, le⟩ :=
        attempt_expression_cases reader
      · simp only [prepare, read] at follows ⊢
        have noted : e.Noted (prepare steps reader' (r.resolve e)).2.locals r.blocks := by
          intro id name mem
          have older : id < reader'.nextId :=
            (numbers.mem_iff.1 (Resolution.mem_referenceIds mem)).2
          rw [find?_prepare steps older, numbers.find?_resolve fresh mem]
          rfl
        obtain ⟨outcome, s', resolved, dynamic, follows'⟩ := act_evaluate follows noted
        have rest := ih (numbers.freshFrom_resolve fresh) (by simpa using follows')
        simp only [perform, resolved, dynamic, List.map_cons]
        exact congrArg (List.cons (outcome, s'.forget)) rest
      · simp only [prepare, read] at follows ⊢
        have rest := ih (fresh.mono le) follows
        exact congrArg (List.cons (Outcome.failed err.diagnostic, s.forget)) rest

end Session

/-- Access by distance refines access by name: over the tokens of a text and any steps,
the program with all distances has after every step the outcome and the scopes of the
same steps by name in a session that never has a distance. -/
theorem runProgram_resolved_refines_dynamic (tokens : List Token) (steps : List Step) :
    (runProgram .resolved tokens steps).2.map (fun step => (step.1, step.2.forget)) =
      (Session.start .empty).perform .dynamic (prepare steps (.ofTokens tokens) {}).1 := by
  have fresh : ({} : Resolution).FreshFrom (TokenReader.ofTokens tokens).nextId :=
    fun _ _ => Table.find?_empty _
  exact Session.perform_prepare steps fresh (Session.follows_start _)

end ScopedExpr
