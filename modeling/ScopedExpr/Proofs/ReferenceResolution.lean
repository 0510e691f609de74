import ScopedExpr.Proofs.GrammarSoundness
import ScopedExpr.TwoPassProgram

/-!
# What resolution notes

A tree whose references have different numbers gets for each of them the distance of its
name; nothing else changes. In a program the numbers never come back, so what is noted
for one expression is what the last pass finds.
-/

namespace ScopedExpr

namespace Resolution

variable {r : Resolution} {e : Expr} {id : Nat} {name : Token}

theorem distance?_resolve (r : Resolution) (e : Expr) (name : String) :
    (r.resolve e).distance? name = r.distance? name := by
  rw [distance?, blocks_resolve, distance?]

theorem find?_resolveReference_self (name : String) :
    (r.resolveReference id name).locals.find? id =
      (r.distance? name).or (r.locals.find? id) := by
  unfold resolveReference
  split <;> simp [*]

theorem find?_resolveReference_of_ne {other : Nat} (h : id ≠ other) (name : String) :
    (r.resolveReference other name).locals.find? id = r.locals.find? id := by
  unfold resolveReference
  split
  · exact Table.find?_insert_of_ne _ _ h
  · rfl

theorem find?_resolve_of_notMem (h : id ∉ e.referenceIds) :
    (r.resolve e).locals.find? id = r.locals.find? id := by
  induction e generalizing r with
  | literal v => rfl
  | grouping e ih => exact ih h
  | reference k name =>
    exact find?_resolveReference_of_ne (by simpa [Expr.referenceIds, Expr.references] using h) _
  | assign k name v ih =>
    have apart : id ≠ k ∧ id ∉ v.referenceIds := by
      simpa [Expr.referenceIds, Expr.references] using h
    exact (find?_resolveReference_of_ne apart.1 _).trans (ih apart.2)
  | get o name ih => exact ih h
  | unary operator e ih => exact ih h
  | set l _ v ihl ihr | binary l _ v ihl ihr | logical l _ v ihl ihr =>
    have apart : id ∉ l.referenceIds ∧ id ∉ v.referenceIds := by
      simpa [Expr.referenceIds, Expr.references, not_or] using h
    exact (ihr apart.2).trans (ihl apart.1)

theorem mem_referenceIds (h : (id, name) ∈ e.references) : id ∈ e.referenceIds :=
  List.mem_map_of_mem (f := Prod.fst) h

/-- Each reference of a tree gets the distance of its name, when the tree numbers its
references apart. -/
theorem find?_resolve_of_mem (nodup : e.referenceIds.Nodup) (mem : (id, name) ∈ e.references) :
    (r.resolve e).locals.find? id = (r.distance? name.lexeme).or (r.locals.find? id) := by
  induction e generalizing r with
  | literal v => cases mem
  | grouping e ih => exact ih nodup mem
  | reference k n =>
    obtain ⟨rfl, rfl⟩ : id = k ∧ name = n := by simpa [Expr.references] using mem
    exact find?_resolveReference_self _
  | assign k n v ih =>
    have apart : k ∉ v.referenceIds ∧ v.referenceIds.Nodup := by
      simpa [Expr.referenceIds, Expr.references] using nodup
    rcases List.mem_cons.1 mem with same | inner
    · obtain ⟨rfl, rfl⟩ := Prod.mk.inj same
      refine (find?_resolveReference_self _).trans ?_
      rw [distance?_resolve, find?_resolve_of_notMem apart.1]
    · have ne : id ≠ k := by
        rintro rfl
        exact apart.1 (mem_referenceIds inner)
      exact (find?_resolveReference_of_ne ne _).trans (ih apart.2 inner)
  | get o n ih => exact ih nodup mem
  | unary operator e ih => exact ih nodup mem
  | set l _ v ihl ihr | binary l _ v ihl ihr | logical l _ v ihl ihr =>
    have split : (l.referenceIds ++ v.referenceIds).Nodup := by
      simpa [Expr.referenceIds, Expr.references] using nodup
    obtain ⟨left, right, apart⟩ := List.nodup_append.1 split
    rcases List.mem_append.1 mem with mem | mem
    · have notRight : id ∉ v.referenceIds := fun is =>
        apart _ (mem_referenceIds mem) _ is rfl
      exact (find?_resolve_of_notMem notRight).trans (ihl left mem)
    · have notLeft : id ∉ l.referenceIds := fun is =>
        apart _ is _ (mem_referenceIds mem) rfl
      refine (ihr right mem).trans ?_
      rw [distance?_resolve, find?_resolve_of_notMem notLeft]

def FreshFrom (r : Resolution) (id : Nat) : Prop := ∀ k, id ≤ k → r.locals.find? k = none

theorem FreshFrom.mono {a b : Nat} (h : r.FreshFrom a) (le : a ≤ b) : r.FreshFrom b :=
  fun k hk => h k (Nat.le_trans le hk)

end Resolution

/-- The numbers of the references of one expression that a reader gives. -/
structure TokenReader.Numbers (reader : TokenReader) (e : Expr) (reader' : TokenReader) : Prop where
  ids : e.referenceIds = List.range' reader.nextId e.references.length
  nextId : reader'.nextId = reader.nextId + e.references.length

namespace TokenReader.Numbers

variable {reader reader' : TokenReader} {e : Expr} {r : Resolution} {id : Nat} {name : Token}

theorem of_attempt (h : reader.attempt Reading.expression = (.ok e, reader')) :
    reader.Numbers e reader' := by
  obtain ⟨read, -⟩ := Reading.reads_expression (TokenReader.attempt_eq_ok_iff.1 h)
  exact ⟨read.ids, read.nextId⟩

theorem nodup (h : reader.Numbers e reader') : e.referenceIds.Nodup :=
  h.ids ▸ List.nodup_range'

theorem mem_iff (h : reader.Numbers e reader') :
    id ∈ e.referenceIds ↔ reader.nextId ≤ id ∧ id < reader'.nextId := by
  rw [h.ids, h.nextId, List.mem_range'_1]

theorem find?_resolve_of_lt (h : reader.Numbers e reader') (old : id < reader.nextId) :
    (r.resolve e).locals.find? id = r.locals.find? id :=
  Resolution.find?_resolve_of_notMem fun mem => Nat.not_lt.2 (h.mem_iff.1 mem).1 old

theorem find?_resolve (h : reader.Numbers e reader') (fresh : r.FreshFrom reader.nextId)
    (mem : (id, name) ∈ e.references) :
    (r.resolve e).locals.find? id = r.distance? name.lexeme := by
  have new := (h.mem_iff.1 (Resolution.mem_referenceIds mem)).1
  rw [Resolution.find?_resolve_of_mem h.nodup mem, fresh id new, Option.or_none]

theorem freshFrom_resolve (h : reader.Numbers e reader') (fresh : r.FreshFrom reader.nextId) :
    (r.resolve e).FreshFrom reader'.nextId := by
  intro k hk
  have notIn : k ∉ e.referenceIds := fun mem => Nat.not_lt.2 hk (h.mem_iff.1 mem).2
  rw [Resolution.find?_resolve_of_notMem notIn]
  exact fresh k (by have := h.nextId; omega)

end TokenReader.Numbers

theorem attempt_expression_cases (reader : TokenReader) :
    (∃ e reader', reader.attempt Reading.expression = (.ok e, reader') ∧
      reader.Numbers e reader') ∨
    ∃ error reader', reader.attempt Reading.expression = (.error error, reader') ∧
      reader.nextId ≤ reader'.nextId := by
  rcases h : reader.attempt Reading.expression with ⟨error | e, reader'⟩
  · refine .inr ⟨error, reader', rfl, ?_⟩
    have forward := (Reading.forward_expression reader).nextId
    rwa [h] at forward
  · exact .inl ⟨e, reader', rfl, .of_attempt h⟩

/-- The rest of a program notes nothing for references that were read before. -/
theorem find?_prepare (steps : List Step) {reader : TokenReader} {r : Resolution} {id : Nat}
    (old : id < reader.nextId) :
    (prepare steps reader r).2.locals.find? id = r.locals.find? id := by
  induction steps generalizing reader r with
  | nil => rfl
  | cons step steps ih =>
    cases step with
    | openBlock => exact ih old
    | closeBlock => exact ih old
    | define name value =>
      refine (ih old).trans ?_
      unfold Resolution.declare
      split <;> rfl
    | expression =>
      obtain ⟨e, reader', read, numbers⟩ | ⟨error, reader', read, le⟩ :=
        attempt_expression_cases reader
      · have later : id < reader'.nextId := by
          have := numbers.nextId
          omega
        simp only [prepare, read]
        exact (ih later).trans (numbers.find?_resolve_of_lt old)
      · simp only [prepare, read]
        exact ih (Nat.lt_of_lt_of_le old le)

end ScopedExpr
