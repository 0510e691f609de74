import Mathlib.Data.List.Basic
import Mathlib.Data.List.Induction
import ScopedExpr.Proofs.BlockNesting
import ScopedExpr.Proofs.ReferenceResolution

/-!
# Distances from histories

A resolution goes through any operations: blocks are opened and closed, names declared and
trees resolved. What it has noted for a reference is told by the operations alone: the
distance of the innermost block that was open when the reference was resolved and in which
its name had been declared since the block was opened.
-/

namespace ScopedExpr

namespace Resolution

inductive Operation where
  | openBlock
  | closeBlock
  | declare (name : String)
  | resolve (e : Expr)

namespace Operation

def mark : Operation → BlockMark
  | openBlock => .opening
  | closeBlock => .closing
  | _ => .neutral

def referenceIds : Operation → List Nat
  | resolve e => e.referenceIds
  | _ => []

end Operation

def after (r : Resolution) : Operation → Resolution
  | .openBlock => r.openBlock
  | .closeBlock => r.closeBlock
  | .declare name => r.declare name
  | .resolve e => r.resolve e

def afterAll (r : Resolution) (ops : List Operation) : Resolution := ops.foldl after r

/-- Behind some operations a block is open, and `d` blocks are open within it. -/
def OpenAt (ops : List Operation) (d : Nat) : Prop :=
  ∃ before inside, ops = before ++ .openBlock :: inside ∧
    openBlocks? 0 (inside.map Operation.mark) = some d

/-- A name was declared in a block since it was opened, and behind some operations the block
is open, with `d` blocks open within it. -/
def DeclaredAt (ops : List Operation) (d : Nat) (name : String) : Prop :=
  ∃ before behind, ops = before ++ .declare name :: behind ∧ OpenAt before 0 ∧
    openBlocks? 0 (behind.map Operation.mark) = some d

/-- Of the blocks that are open behind some operations, the innermost one with a name has `d`
blocks within it. -/
def BoundAt (ops : List Operation) (name : String) (d : Nat) : Prop :=
  DeclaredAt ops d name ∧ ∀ n < d, ¬ DeclaredAt ops n name

variable {r : Resolution} {ops : List Operation} {op : Operation} {d id : Nat} {x : String}

@[simp] theorem afterAll_nil (r : Resolution) : r.afterAll [] = r := rfl

@[simp] theorem afterAll_cons (r : Resolution) (op : Operation) (ops : List Operation) :
    r.afterAll (op :: ops) = (r.after op).afterAll ops := rfl

theorem afterAll_append (r : Resolution) (a b : List Operation) :
    r.afterAll (a ++ b) = (r.afterAll a).afterAll b := List.foldl_append

theorem openBlocks?_concat (n : Nat) (ops : List Operation) (op : Operation) :
    openBlocks? n ((ops ++ [op]).map Operation.mark) = some d ↔
      ∃ m, openBlocks? n (ops.map Operation.mark) = some m ∧
        openBlocks? m [op.mark] = some d := by
  rw [List.map_append, openBlocks?_append, Option.bind_eq_some_iff]
  rfl

/-- An operation with something before it, and `d` blocks that were opened since and are open,
is the last one of a history, or the same is told without the last one. -/
theorem exists_split_concat {o : Operation} {p : List Operation → Prop} :
    (∃ before behind, ops ++ [op] = before ++ o :: behind ∧ p before ∧
        openBlocks? 0 (behind.map Operation.mark) = some d) ↔
      (op = o ∧ d = 0 ∧ p ops) ∨
        ∃ m, (∃ before behind, ops = before ++ o :: behind ∧ p before ∧
          openBlocks? 0 (behind.map Operation.mark) = some m) ∧
          openBlocks? m [op.mark] = some d := by
  constructor
  · rintro ⟨before, behind, split, holds, counted⟩
    obtain rfl | ⟨behind, last, rfl⟩ := behind.eq_nil_or_concat'
    · obtain ⟨rfl, same⟩ := List.append_inj' split rfl
      exact .inl ⟨(List.cons.inj same).1, (Option.some.inj counted).symm, holds⟩
    · rw [← List.cons_append, ← List.append_assoc] at split
      obtain ⟨rfl, same⟩ := List.append_inj' split rfl
      obtain rfl := (List.cons.inj same).1
      obtain ⟨m, first, rest⟩ := (openBlocks?_concat _ _ _).1 counted
      exact .inr ⟨m, ⟨before, behind, rfl, holds, first⟩, rest⟩
  · rintro (⟨rfl, rfl, holds⟩ | ⟨m, ⟨before, behind, rfl, holds, first⟩, rest⟩)
    · exact ⟨ops, [], rfl, holds, rfl⟩
    · exact ⟨before, behind ++ [op], by simp, holds, (openBlocks?_concat _ _ _).2 ⟨m, first, rest⟩⟩

theorem openAt_concat : OpenAt (ops ++ [op]) d ↔
    (op = .openBlock ∧ d = 0) ∨ ∃ m, OpenAt ops m ∧ openBlocks? m [op.mark] = some d := by
  have split := @exists_split_concat ops op d .openBlock fun _ => True
  simp only [true_and, and_true] at split
  exact split

theorem declaredAt_concat : DeclaredAt (ops ++ [op]) d x ↔
    (op = .declare x ∧ d = 0 ∧ OpenAt ops 0) ∨
      ∃ m, DeclaredAt ops m x ∧ openBlocks? m [op.mark] = some d :=
  exists_split_concat

/-- The open blocks of a resolution and the names in them are those that its history tells. -/
structure Records (ops : List Operation) (r : Resolution) : Prop where
  opened : ∀ d, OpenAt ops d ↔ d < r.blocks.length
  declared : ∀ d x, DeclaredAt ops d x ↔ ∃ block, r.blocks[d]? = some block ∧ x ∈ block

namespace Records

theorem nil : Records [] {} where
  opened d := by simp [OpenAt]
  declared d x := by simp [DeclaredAt]

/-- To resolve a tree opens, closes and declares nothing. -/
theorem resolve (h : Records ops r) (e : Expr) : Records (ops ++ [.resolve e]) (r.resolve e) where
  opened d := by
    rw [openAt_concat, blocks_resolve]
    simpa [Operation.mark, openBlocks?] using h.opened d
  declared d x := by
    rw [declaredAt_concat, blocks_resolve]
    simpa [Operation.mark, openBlocks?] using h.declared d x

theorem openBlock (h : Records ops r) : Records (ops ++ [.openBlock]) r.openBlock where
  opened d := by
    rw [openAt_concat]
    cases d with
    | zero => simp [Resolution.openBlock]
    | succ d => simpa [Operation.mark, openBlocks?, Resolution.openBlock] using h.opened d
  declared d x := by
    rw [declaredAt_concat]
    cases d with
    | zero => simp [Operation.mark, openBlocks?, Resolution.openBlock]
    | succ d => simpa [Operation.mark, openBlocks?, Resolution.openBlock] using h.declared d x

private theorem openBlocks?_closing {m : Nat} :
    openBlocks? m [Operation.closeBlock.mark] = some d ↔ m = d + 1 := by
  cases m <;> simp [Operation.mark, openBlocks?]

theorem closeBlock (h : Records ops r) : Records (ops ++ [.closeBlock]) r.closeBlock where
  opened d := by
    rw [openAt_concat]
    simp only [openBlocks?_closing, reduceCtorEq, false_and, false_or, exists_eq_right]
    rw [h.opened, Resolution.closeBlock, List.length_tail]
    omega
  declared d x := by
    rw [declaredAt_concat]
    simp only [openBlocks?_closing, reduceCtorEq, false_and, false_or, exists_eq_right]
    rw [h.declared, Resolution.closeBlock, List.getElem?_tail]

/-- A name goes into the innermost block, or nowhere when none is open. -/
theorem declare (h : Records ops r) (y : String) :
    Records (ops ++ [.declare y]) (r.declare y) where
  opened d := by
    have same : (r.declare y).blocks.length = r.blocks.length := by
      cases blocks : r.blocks <;> simp [Resolution.declare, blocks]
    rw [openAt_concat, same]
    simpa [Operation.mark, openBlocks?] using h.opened d
  declared d x := by
    have here : DeclaredAt (ops ++ [.declare y]) d x ↔
        (y = x ∧ d = 0 ∧ 0 < r.blocks.length) ∨
          ∃ block, r.blocks[d]? = some block ∧ x ∈ block := by
      rw [declaredAt_concat, h.opened]
      simp [Operation.mark, openBlocks?, h.declared]
    rw [here]
    cases blocks : r.blocks with
    | nil => simp [Resolution.declare, blocks]
    | cons block outer =>
      cases d with
      | zero => simp [Resolution.declare, blocks, eq_comm]
      | succ d => simp [Resolution.declare, blocks]

theorem afterAll (ops : List Operation) : Records ops (Resolution.afterAll {} ops) := by
  induction ops using List.reverseRecOn with
  | nil => exact .nil
  | append_singleton ops op ih =>
    rw [afterAll_append, afterAll_cons, afterAll_nil]
    cases op with
    | openBlock => exact ih.openBlock
    | closeBlock => exact ih.closeBlock
    | declare y => exact ih.declare y
    | resolve e => exact ih.resolve e

/-- A name has the distance of the innermost block in which its history declares it. -/
theorem distance?_eq_some_iff (h : Records ops r) :
    r.distance? x = some d ↔ BoundAt ops x d := by
  rw [distance?, List.findIdx?_eq_some_iff_getElem, BoundAt]
  simp only [h.declared, List.contains_iff_mem]
  constructor
  · rintro ⟨inside, mem, free⟩
    refine ⟨⟨_, List.getElem?_eq_getElem inside, mem⟩, ?_⟩
    rintro n nearer ⟨block, at_n, mem'⟩
    obtain ⟨_, rfl⟩ := List.getElem?_eq_some_iff.1 at_n
    exact free n nearer mem'
  · rintro ⟨⟨block, at_d, mem⟩, free⟩
    obtain ⟨inside, rfl⟩ := List.getElem?_eq_some_iff.1 at_d
    refine ⟨inside, mem, fun n nearer mem' => free n nearer ⟨_, ?_, mem'⟩⟩
    exact List.getElem?_eq_getElem (Nat.lt_trans nearer inside)

end Records

/-- Operations note nothing for numbers that their trees do not have. -/
theorem find?_afterAll_of_notMem (h : id ∉ ops.flatMap Operation.referenceIds) :
    (r.afterAll ops).locals.find? id = r.locals.find? id := by
  induction ops generalizing r with
  | nil => rfl
  | cons op ops ih =>
    rw [List.flatMap_cons, List.mem_append, not_or] at h
    rw [afterAll_cons, ih h.2]
    cases op with
    | openBlock => rfl
    | closeBlock => rfl
    | declare x => cases blocks : r.blocks <;> simp [after, declare, blocks]
    | resolve e => exact find?_resolve_of_notMem h.1

/-- A number that operations resolve is that of a reference in one of their trees. -/
theorem exists_resolved (h : id ∈ ops.flatMap Operation.referenceIds) :
    ∃ before e behind name, ops = before ++ .resolve e :: behind ∧ (id, name) ∈ e.references := by
  obtain ⟨op, mem, inOp⟩ := List.mem_flatMap.1 h
  obtain ⟨before, behind, rfl⟩ := List.append_of_mem mem
  cases op with
  | openBlock => cases inOp
  | closeBlock => cases inOp
  | declare x => cases inOp
  | resolve e =>
    obtain ⟨⟨_, name⟩, inTree, rfl⟩ := List.mem_map.1 inOp
    exact ⟨before, e, behind, name, rfl, inTree⟩

/-- A reference with a number of its own has the distance that its name has where its tree
is resolved. -/
theorem find?_afterAll_of_mem {before behind : List Operation} {e : Expr} {name : Token}
    (apart : ((before ++ .resolve e :: behind).flatMap Operation.referenceIds).Nodup)
    (mem : (id, name) ∈ e.references) :
    (Resolution.afterAll {} (before ++ .resolve e :: behind)).locals.find? id =
      (Resolution.afterAll {} before).distance? name.lexeme := by
  rw [List.flatMap_append, List.flatMap_cons] at apart
  obtain ⟨-, later, early⟩ := List.nodup_append.1 apart
  obtain ⟨own, -, late⟩ := List.nodup_append.1 later
  have inTree : id ∈ e.referenceIds := mem_referenceIds mem
  have notBehind : id ∉ behind.flatMap Operation.referenceIds := by
    intro there
    exact late id inTree id there rfl
  have notBefore : id ∉ before.flatMap Operation.referenceIds := by
    intro there
    exact early id there id (List.mem_append_left _ inTree) rfl
  rw [afterAll_append, afterAll_cons, find?_afterAll_of_notMem notBehind, after,
    find?_resolve_of_mem own mem, find?_afterAll_of_notMem notBefore]
  exact Option.or_none

end Resolution

open Resolution in
/-- Resolution computes lexical distances. When the references of all resolved trees have
different numbers, the distance noted for a number is that of the innermost block which was
open when its reference was resolved and had its name declared since it was opened; there are
more open blocks than the distance tells. Outside of blocks nothing can be declared or closed,
and to resolve a tree changes neither the blocks nor what is noted for other numbers. -/
theorem resolution_notes_lexical_distances :
    (∀ ops : List Operation, (ops.flatMap Operation.referenceIds).Nodup → ∀ id d,
      (afterAll {} ops).locals.find? id = some d ↔
        ∃ before e behind name, ops = before ++ .resolve e :: behind ∧
          (id, name) ∈ e.references ∧ BoundAt before name.lexeme d) ∧
    (∀ (ops : List Operation) x d, BoundAt ops x d → d < (afterAll {} ops).depth) ∧
    (∀ r : Resolution, r.depth = 0 → (∀ x, r.declare x = r) ∧ r.closeBlock = r) ∧
    ∀ (r : Resolution) (e : Expr), (r.resolve e).blocks = r.blocks ∧
      ∀ id ∉ e.referenceIds, (r.resolve e).locals.find? id = r.locals.find? id := by
  refine ⟨fun ops apart id d => ?_, fun ops x d bound => ?_, fun r outside => ?_,
    fun r e => ⟨blocks_resolve r e, fun id free => find?_resolve_of_notMem free⟩⟩
  · constructor
    · intro noted
      by_cases resolved : id ∈ ops.flatMap Operation.referenceIds
      · obtain ⟨before, e, behind, name, rfl, mem⟩ := exists_resolved resolved
        refine ⟨before, e, behind, name, rfl, mem, ?_⟩
        rw [find?_afterAll_of_mem apart mem] at noted
        exact (Records.afterAll before).distance?_eq_some_iff.1 noted
      · rw [find?_afterAll_of_notMem resolved] at noted
        cases noted
    · rintro ⟨before, e, behind, name, rfl, mem, bound⟩
      rw [find?_afterAll_of_mem apart mem]
      exact (Records.afterAll before).distance?_eq_some_iff.2 bound
  · obtain ⟨inside, -⟩ := List.findIdx?_eq_some_iff_getElem.1
      ((Records.afterAll ops).distance?_eq_some_iff.2 bound)
    exact inside
  · have none : r.blocks = [] := List.eq_nil_of_length_eq_zero outside
    refine ⟨fun x => ?_, ?_⟩
    · rw [declare, none]
    · cases r
      cases none
      rfl

def twoBlocks : List Resolution.Operation := [.openBlock, .declare "x", .openBlock]

/-- An `x` is resolved in the inner one of two blocks, which declares `x` itself only later. -/
def resolvedInTwoBlocks : List Resolution.Operation :=
  twoBlocks ++ .resolve (.reference 0 ⟨.identifier, "x", 1⟩) :: [.declare "x", .closeBlock]

/-- The `x` gets the distance of the outer block, and keeps it when another `x` is resolved. -/
theorem resolvedInTwoBlocks_distance :
    (resolvedInTwoBlocks.flatMap Resolution.Operation.referenceIds).Nodup ∧
      (Resolution.afterAll {} resolvedInTwoBlocks).locals.find? 0 = some 1 ∧
      Resolution.BoundAt twoBlocks "x" 1 ∧
      1 < (Resolution.afterAll {} twoBlocks).depth ∧
      Resolution.depth {} = 0 ∧ Resolution.declare {} "x" = {} ∧
      0 ∉ Expr.referenceIds (.reference 1 ⟨.identifier, "x", 2⟩) ∧
      ((Resolution.afterAll {} resolvedInTwoBlocks).resolve
        (.reference 1 ⟨.identifier, "x", 2⟩)).locals.find? 0 = some 1 :=
  have apart : (resolvedInTwoBlocks.flatMap Resolution.Operation.referenceIds).Nodup := by decide
  have bound : Resolution.BoundAt twoBlocks "x" 1 :=
    (Resolution.Records.afterAll twoBlocks).distance?_eq_some_iff.1 rfl
  have other : 0 ∉ Expr.referenceIds (.reference 1 ⟨.identifier, "x", 2⟩) := by decide
  have distances := resolution_notes_lexical_distances
  have noted := (distances.1 resolvedInTwoBlocks apart 0 1).2
    ⟨twoBlocks, _, _, ⟨.identifier, "x", 1⟩, rfl, List.mem_singleton_self _, bound⟩
  ⟨apart, noted, bound, distances.2.1 _ _ _ bound, rfl, (distances.2.2.1 {} rfl).1 "x", other,
    ((distances.2.2.2 _ _).2 0 other).trans noted⟩

end ScopedExpr
