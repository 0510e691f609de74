import ScopedExpr.Proofs.ExpressionRecognition
import ScopedExpr.Proofs.ReferenceResolution

/-!
# Numbers of references

One reader is asked again and again for an expression or for a whole, and goes on behind a
call that failed. The references of every tree that it gives are numbered in the order of
the text, without a gap, from the number that the calls before have left; calls that failed
leave numbers unused, and no number is used twice.
-/

namespace ScopedExpr

/-- What a reader is asked for: the next expression, or all that is left as one. -/
inductive Call where
  | expression
  | wholeExpression

def Call.step : Call → Reading Expr
  | expression => Reading.expression
  | wholeExpression => Reading.wholeExpression

namespace TokenReader

def behindCalls (r : TokenReader) (calls : List Call) : TokenReader :=
  calls.foldl (fun r call => (r.attempt call.step).2) r

def answers (r : TokenReader) (calls : List Call) : List (Except ParseError Expr) :=
  attemptAll (calls.map Call.step) r

variable {r : TokenReader} {calls : List Call} {k m : Nat}

theorem behindCalls_append (r : TokenReader) (a b : List Call) :
    r.behindCalls (a ++ b) = (r.behindCalls a).behindCalls b := List.foldl_append

theorem behindCalls_take_succ (h : k < calls.length) : r.behindCalls (calls.take (k + 1)) =
    ((r.behindCalls (calls.take k)).attempt calls[k].step).2 := by
  rw [List.take_succ_eq_append_getElem h, behindCalls_append]
  rfl

theorem length_answers (r : TokenReader) (calls : List Call) :
    (r.answers calls).length = calls.length := by
  induction calls generalizing r with
  | nil => rfl
  | cons call calls ih => exact congrArg (· + 1) (ih _)

/-- The answer to a call is given behind the calls before. -/
theorem getElem?_answers (h : k < calls.length) : (r.answers calls)[k]? =
    some ((r.behindCalls (calls.take k)).attempt calls[k].step).1 := by
  induction calls generalizing r k with
  | nil => cases h
  | cons call calls ih =>
    cases k with
    | zero => rfl
    | succ k => exact ih (Nat.lt_of_succ_lt_succ h)

theorem forward_call (call : Call) : Reading.Forward call.step := by
  cases call with
  | expression => exact Reading.forward_expression
  | wholeExpression => exact Reading.forward_wholeExpression

theorem precedes_behindCalls (r : TokenReader) (calls : List Call) :
    r.Precedes (r.behindCalls calls) := by
  induction calls generalizing r with
  | nil => exact .refl r
  | cons call calls ih => exact (forward_call call r).trans (ih _)

/-- Later calls go on with the numbers behind an earlier one. -/
theorem nextId_behindCalls_le (r : TokenReader) (calls : List Call) (before : k < m) :
    (r.behindCalls (calls.take (k + 1))).nextId ≤ (r.behindCalls (calls.take m)).nextId := by
  obtain ⟨d, rfl⟩ := Nat.exists_eq_add_of_le (show k + 1 ≤ m from before)
  have split : calls.take (k + 1 + d) = calls.take (k + 1) ++ (calls.drop (k + 1)).take d :=
    List.take_add
  rw [split, behindCalls_append]
  exact (precedes_behindCalls _ _).nextId

theorem identifierCount_ofTokens_le (tokens : List Token) :
    identifierCount (ofTokens tokens).rest ≤ identifierCount tokens :=
  (rest_ofTokens_sublist tokens).countP_le

/-- A tree that a call gives is read from the tokens that the call takes. -/
theorem reads_of_call {call : Call} {e : Expr} {r' : TokenReader}
    (h : r.attempt call.step = (.ok e, r')) : Reading.Reads r ⟨e, e.countedHeight⟩ r' := by
  have run := attempt_eq_ok_iff.1 h
  cases call with
  | expression => exact (Reading.reads_expression run).1
  | wholeExpression =>
    exact (Reading.reads_expression (Reading.run_wholeExpression_eq_ok_iff.1 run).1).1

theorem reads_of_answers {e : Expr} (read : (r.answers calls)[k]? = some (.ok e)) :
    Reading.Reads (r.behindCalls (calls.take k)) ⟨e, e.countedHeight⟩
      (r.behindCalls (calls.take (k + 1))) := by
  obtain ⟨bound, -⟩ := List.getElem?_eq_some_iff.1 read
  rw [length_answers] at bound
  rw [getElem?_answers bound, Option.some.injEq] at read
  rw [behindCalls_take_succ bound]
  exact reads_of_call (Prod.ext read rfl)

theorem numbers_of_answers {e : Expr} (read : (r.answers calls)[k]? = some (.ok e)) :
    (r.behindCalls (calls.take k)).Numbers e (r.behindCalls (calls.take (k + 1))) :=
  ⟨(reads_of_answers read).ids, (reads_of_answers read).nextId⟩

end TokenReader

/-- The references of a tree come in the order of its tokens. -/
theorem Expr.Spells.names_sublist {e : Expr} {ts : List Token} (h : e.Spells ts) :
    (e.references.map Prod.snd).Sublist ts := by
  induction h with
  | literal => exact List.nil_sublist _
  | grouping _ _ _ inner => exact (inner.trans (List.sublist_append_left _ _)).cons _
  | reference => exact List.Sublist.refl _
  | assign _ _ value => exact (value.cons _).cons_cons _
  | get _ _ object => exact object.trans (List.sublist_append_left _ _)
  | set _ _ _ _ object value =>
    rw [references, List.map_append]
    exact object.append (((value.cons _).cons _).cons _)
  | unary _ operand => exact operand.cons _
  | binary _ _ left right | logical _ _ left right =>
    rw [references, List.map_append]
    exact left.append (right.cons _)

/-- The references of a tree that one of many calls gives are numbered in the order of the
text from the number that the calls before have left. No other tree has a number of them,
and there are at most as many numbers as identifiers. -/
theorem answers_numbered {tokens : List Token} {calls : List Call} {k : Nat} {e : Expr}
    (read : ((TokenReader.ofTokens tokens).answers calls)[k]? = some (.ok e)) :
    e.referenceIds = List.range' ((TokenReader.ofTokens tokens).behindCalls (calls.take k)).nextId
        e.references.length ∧
      e.referenceIds.Nodup ∧
      (∃ taken, ((TokenReader.ofTokens tokens).behindCalls (calls.take k)).rest =
          taken ++ ((TokenReader.ofTokens tokens).behindCalls (calls.take (k + 1))).rest ∧
        (e.references.map Prod.snd).Sublist taken) ∧
      (∀ id ∈ e.referenceIds, id < identifierCount tokens) ∧
      ∀ j f, j ≠ k → ((TokenReader.ofTokens tokens).answers calls)[j]? = some (.ok f) →
        e.referenceIds.Disjoint f.referenceIds := by
  obtain ⟨taken, spelled, rest⟩ := (TokenReader.reads_of_answers read).spelled
  have numbers := TokenReader.numbers_of_answers read
  refine ⟨numbers.ids, numbers.nodup, ⟨taken, rest, spelled.names_sublist⟩, ?_, ?_⟩
  · intro id mem
    have below := (numbers.mem_iff.1 mem).2
    have paid := (TokenReader.precedes_behindCalls (.ofTokens tokens)
      (calls.take (k + 1))).numbered
    have start : (TokenReader.ofTokens tokens).nextId = 0 := rfl
    have enough := TokenReader.identifierCount_ofTokens_le tokens
    omega
  · intro j f ne other id mem mem'
    have here := numbers.mem_iff.1 mem
    have there := (TokenReader.numbers_of_answers other).mem_iff.1 mem'
    rcases Nat.lt_or_gt_of_ne ne with before | after
    · have grows := TokenReader.nextId_behindCalls_le (.ofTokens tokens) calls before
      exact absurd here.1 (by omega)
    · have grows := TokenReader.nextId_behindCalls_le (.ofTokens tokens) calls after
      exact absurd here.2 (by omega)

/-- `a b = c`, read as a whole and then by expressions. -/
def nameThenAssignment : List Token :=
  [⟨.identifier, "a", 1⟩, ⟨.identifier, "b", 1⟩, ⟨.punctuator .equal, "=", 1⟩,
    ⟨.identifier, "c", 1⟩, ⟨.endOfText, "", 1⟩]

/-- The call that fails leaves number 0 unused. -/
theorem nameThenAssignment_numbered :
    ((TokenReader.ofTokens nameThenAssignment).answers [.wholeExpression, .expression])[1]? =
        some (.ok (.assign 1 ⟨.identifier, "b", 1⟩ (.reference 2 ⟨.identifier, "c", 1⟩))) ∧
      (Expr.assign 1 ⟨.identifier, "b", 1⟩
        (.reference 2 ⟨.identifier, "c", 1⟩)).referenceIds = List.range' 1 2 :=
  have read : ((TokenReader.ofTokens nameThenAssignment).answers
      [.wholeExpression, .expression])[1]? = some (.ok (.assign 1 ⟨.identifier, "b", 1⟩
        (.reference 2 ⟨.identifier, "c", 1⟩))) := rfl
  ⟨read, (answers_numbered read).1⟩

end ScopedExpr
