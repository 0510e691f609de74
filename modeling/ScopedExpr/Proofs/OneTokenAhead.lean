import Mathlib.Data.List.TakeWhile
import ScopedExpr.Proofs.BoundedNesting
import ScopedExpr.Proofs.FirstImpossibleToken
import ScopedExpr.Proofs.LocalReading

/-!
# One token ahead

What a call for an expression does is told by the tokens that it takes and the one behind
them. Tokens before the cursor and further ones do not matter, and neither does anything that
earlier calls have left behind, except for the number at which the references go on.
-/

namespace ScopedExpr

namespace TokenReader

/-- The token at a place among those that are not comments; behind them all stands an end. -/
def tokenAt (tokens : List Token) (n : Nat) : Token :=
  (tokens.filter isCode)[n]?.getD missingEnd

/-- How many tokens of a list a reader over it has taken. -/
def cursor (tokens : List Token) (r : TokenReader) : Nat :=
  (ofTokens tokens).rest.length - r.rest.length

/-- As far as the reader can go, these are the tokens that it sees: others than ends, and
then an end. -/
structure Shows (view : Nat → Token) (r : TokenReader) : Prop where
  token : ∀ i ≤ r.rest.length, view i = (r.rest.drop i).head?.getD r.stop
  code : ∀ t ∈ r.rest, t.kind ≠ .endOfText
  stop : r.stop.kind = .endOfText

theorem shows_ofTokens (tokens : List Token) : Shows (tokenAt tokens) (ofTokens tokens) := by
  refine ⟨fun i le => ?_, fun t => kind_ne_of_mem_ofTokens, kind_stop_ofTokens tokens⟩
  have split : tokens.filter isCode = (ofTokens tokens).rest ++
      (tokens.filter isCode).dropWhile (·.kind != .endOfText) :=
    List.takeWhile_append_dropWhile.symm
  have stop : (ofTokens tokens).stop =
      ((tokens.filter isCode).dropWhile (·.kind != .endOfText)).head?.getD missingEnd := by
    rw [ofTokens, List.find?_eq_head?_dropWhile_not]
    rfl
  rw [tokenAt, split, ← List.head?_drop, List.drop_append_of_le_length le, List.head?_append,
    Option.getD_or, stop]

namespace Shows

variable {tokens : List Token} {view view' : Nat → Token} {r s : TokenReader} {t : Token}
  {ts : List Token}

/-- A reader further on sees the tokens from its cursor on. -/
theorem of_precedes (h : (ofTokens tokens).Precedes r) :
    Shows (fun i => tokenAt tokens (r.cursor tokens + i)) r := by
  have shows := shows_ofTokens tokens
  have within := h.suffix.length_le
  refine ⟨fun i le => ?_, fun t mem => shows.code t (h.suffix.subset mem), h.stop ▸ shows.stop⟩
  have place : r.cursor tokens + i ≤ (ofTokens tokens).rest.length := by
    unfold cursor
    omega
  rw [shows.token _ place, h.stop, ← List.drop_drop, cursor,
    ← List.suffix_iff_eq_drop.1 h.suffix]

theorem current (h : Shows view r) : view 0 = r.current := h.token 0 (Nat.zero_le _)

theorem tail (h : Shows view r) (taken : r.rest = t :: ts) :
    Shows (fun i => view (i + 1)) { r with rest := ts } := by
  refine ⟨fun i le => ?_, fun u mem => h.code u (taken ▸ List.mem_cons_of_mem t mem), h.stop⟩
  have here := h.token (i + 1) (taken ▸ Nat.succ_le_succ le)
  rw [taken, List.drop_succ_cons] at here
  exact here

/-- An end is never mistaken for another token, nor another token for an end. -/
theorem seesSame (h : Shows view r) (h' : Shows view' s) (same : view 0 = view' 0) :
    r.SeesSame s := by
  rw [h.current, h'.current] at same
  refine ⟨?_, same⟩
  unfold TokenReader.current at same
  cases hr : r.rest with
  | nil =>
    cases hs : s.rest with
    | nil => rfl
    | cons u us =>
      rw [hr, hs] at same
      have stop : r.stop = u := same
      exact absurd (stop ▸ h.stop) (h'.code u (hs ▸ List.mem_cons_self))
  | cons t ts =>
    cases hs : s.rest with
    | nil =>
      rw [hr, hs] at same
      have stop : t = s.stop := same
      exact absurd (stop ▸ h'.stop) (h.code t (hr ▸ List.mem_cons_self))
    | cons u us =>
      rw [hr, hs] at same
      exact congrArg some same

/-- Readers that see the same tokens up to the one behind some tokens of the first have those
tokens ahead both, and see the same token behind them. -/
theorem split {taken behind : List Token} (h : Shows view r) (h' : Shows view' s)
    (ahead : r.rest = taken ++ behind) (agree : ∀ i ≤ taken.length, view i = view' i) :
    ∃ behind', s.rest = taken ++ behind' ∧
      SeesSame { r with rest := behind } { s with rest := behind' } := by
  induction taken generalizing r s view view' with
  | nil =>
    cases r
    cases ahead
    exact ⟨s.rest, rfl, h.seesSame h' (agree 0 (Nat.zero_le _))⟩
  | cons t taken ih =>
    have next := (h.seesSame h' (agree 0 (Nat.zero_le _))).next
    rw [ahead, List.cons_append, List.head?_cons, eq_comm, List.head?_eq_some_iff] at next
    obtain ⟨us, rest⟩ := next
    obtain ⟨behind', rfl, sees⟩ := ih (h.tail ahead) (h'.tail rest) rfl fun i le =>
      agree (i + 1) (Nat.succ_le_succ le)
    exact ⟨behind', rest, sees⟩

end Shows

end TokenReader

namespace Expr

variable {f : Nat → Nat}

theorem mapIds_eq_self {e : Expr} (h : ∀ id ∈ e.referenceIds, f id = id) : e.mapIds f = e := by
  induction e with
  | literal v => rfl
  | reference id name => rw [mapIds, h id (List.mem_singleton_self id)]
  | grouping e ih | get e _ ih | unary _ e ih => rw [mapIds, ih h]
  | assign id name v ih =>
    rw [mapIds, h id List.mem_cons_self, ih fun k mem => h k (List.mem_cons_of_mem id mem)]
  | set a _ b iha ihb | binary a _ b iha ihb | logical a _ b iha ihb =>
    rw [referenceIds, references, List.map_append, List.forall_mem_append] at h
    rw [mapIds, iha h.1, ihb h.2]

/-- A tree with its numbers counted from a first one is given back by it. -/
theorem mapIds_sub_add {e : Expr} {first : Nat} (h : ∀ id ∈ e.referenceIds, first ≤ id) :
    (e.mapIds (· - first)).mapIds (first + ·) = e := by
  rw [mapIds_mapIds]
  exact mapIds_eq_self fun id mem => Nat.add_sub_of_le (h id mem)

end Expr

open TokenReader

/-- A call that ends where the first of two readings ends has the same outcome in the second
one, and both give out equally many numbers. -/
theorem attempt_expression_before {p q : TokenReader} (ahead : List Token)
    (sees : p.SeesSame q)
    (ends : ((p.before ahead 0).attempt Reading.expression).2.rest = p.rest) :
    ∃ (outcome : Except ParseError Expr) (given : Nat),
      (p.before ahead 0).attempt Reading.expression =
        (outcome.map (Expr.mapIds (p.nextId + ·)), p.before [] given) ∧
      (q.before ahead 0).attempt Reading.expression =
        (outcome.map (Expr.mapIds (q.nextId + ·)), q.before [] given) := by
  have same := (Local.expression sees).same ahead 0 (Nat.le_of_eq (congrArg List.length ends.symm))
  unfold attempt at ends ⊢
  cases run : Reading.expression.run (p.before ahead 0) with
  | error e r' =>
    rw [run] at ends same
    generalize Reading.expression.run (q.before ahead 0) = other at same ⊢
    cases same with
    | error _ left given =>
      obtain rfl := List.append_left_eq_self.1 ends
      exact ⟨.error e, given, rfl, rfl⟩
  | ok e r' =>
    have ids := (Reading.reads_expression run).1.ids
    rw [run] at ends same
    generalize Reading.expression.run (q.before ahead 0) = other at same ⊢
    cases same with
    | ok _ left given =>
      obtain rfl := List.append_left_eq_self.1 ends
      refine ⟨.ok (e.mapIds (· - p.nextId)), given, ?_, ?_⟩
      · have numbers : (e.mapIds (· - p.nextId)).mapIds (p.nextId + ·) = e := by
          refine Expr.mapIds_sub_add fun id mem => ?_
          rw [ids, List.mem_range'_1] at mem
          exact mem.1
        simp only [Except.map, numbers]
      · have numbers : (e.mapIds (· - p.nextId)).mapIds (q.nextId + ·) =
            e.mapIds (renumber p q) := by
          rw [Expr.mapIds_mapIds]
          exact congrArg (e.mapIds ·) (funext fun id => Nat.add_comm _ _)
        simp only [Except.map, numbers]

/-- A reader with counters over tokens, behind any calls. -/
def CountingReader.ReachedOver (tokens : List Token) (s : CountingReader) : Prop :=
  ∃ calls, s = (start tokens).behindCalls calls

theorem CountingReader.ReachedOver.precedes {tokens : List Token} {s : CountingReader}
    (h : s.ReachedOver tokens) : (ofTokens tokens).Precedes s.reader := by
  obtain ⟨calls, rfl⟩ := h
  rw [(answers_counted calls (start tokens)).2.1]
  exact precedes_behindCalls _ calls

/-- A call for an expression looks one token ahead. Behind any calls, let one move the cursor
by some tokens. On another reader behind any calls that sees the same tokens from its cursor
on, up to the one at which the call stops, the call moves the cursor as far. It has the same
outcome there, up to the number at which the references begin, and gives out as many numbers. -/
theorem expression_looks_one_ahead {tokens others : List Token} {r s r' : CountingReader}
    {k : Nat} {result : Except ParseError Expr} (reached : r.ReachedOver tokens)
    (reached' : s.ReachedOver others)
    (call : r.attempt Counting.expression = (result, r'))
    (moved : r'.reader.cursor tokens = r.reader.cursor tokens + k)
    (agree : ∀ i ≤ k, tokenAt tokens (r.reader.cursor tokens + i) =
      tokenAt others (s.reader.cursor others + i)) :
    ∃ (outcome : Except ParseError Expr) (given : Nat) (s' : CountingReader),
      result = outcome.map (Expr.mapIds (r.reader.nextId + ·)) ∧
      s.attempt Counting.expression =
        (outcome.map (Expr.mapIds (s.reader.nextId + ·)), s') ∧
      s'.reader.cursor others = s.reader.cursor others + k ∧
      r'.reader.nextId = r.reader.nextId + given ∧
      s'.reader.nextId = s.reader.nextId + given := by
  obtain ⟨answer, reader, -⟩ := CountingReader.attempt_counted .expression r
  obtain ⟨answer', reader', -⟩ := CountingReader.attempt_counted .expression s
  simp only [Call.counted, Call.step, call] at answer reader answer' reader'
  have here := reached.precedes
  have there := reached'.precedes
  obtain ⟨taken, ahead⟩ := reader ▸ (Reading.forward_expression r.reader).suffix
  have length : taken.length = k := by
    have within := here.suffix.length_le
    have split := congrArg List.length ahead
    rw [List.length_append] at split
    unfold cursor at moved
    omega
  obtain ⟨behind, ahead', sees⟩ := (Shows.of_precedes here).split (.of_precedes there) ahead.symm
    fun i le => agree i (length ▸ le)
  -- both readers before the places where the call ends
  have before : r.reader =
      ({ r.reader with rest := r'.reader.rest } : TokenReader).before taken 0 := by
    simp only [TokenReader.before, ahead, Nat.add_zero]
  have before' : s.reader = ({ s.reader with rest := behind } : TokenReader).before taken 0 := by
    simp only [TokenReader.before, ← ahead', Nat.add_zero]
  rw [before] at reader answer
  rw [before'] at reader' answer'
  obtain ⟨outcome, given, first, second⟩ :=
    attempt_expression_before taken sees (by rw [← reader])
  rw [first] at answer reader
  rw [second] at answer' reader'
  refine ⟨outcome, given, _, answer, Prod.ext answer' rfl, ?_, congrArg nextId reader, ?_⟩
  · rw [reader']
    have within := there.suffix.length_le
    rw [ahead', List.length_append, length] at within
    simp only [cursor, TokenReader.before, ahead', List.length_append, length, List.nil_append]
    omega
  · exact congrArg nextId reader'

/-- `a b`, of which an expression is the first name. -/
def nameThenName : List Token := [⟨.identifier, "a", 1⟩, ⟨.identifier, "b", 1⟩, ⟨.endOfText, "", 1⟩]

/-- `( c` with a comment, and then `a b )`. -/
def bracketThenName : List Token :=
  [⟨.punctuator .leftParen, "(", 1⟩, ⟨.identifier, "c", 1⟩, ⟨.comment "", "//", 1⟩,
    ⟨.identifier, "a", 1⟩, ⟨.identifier, "b", 1⟩, ⟨.punctuator .rightParen, ")", 2⟩]

/-- A reader behind a call that has failed at the open bracket. -/
def behindOpenBracket : CountingReader :=
  (CountingReader.start bracketThenName).behindCalls [.expression]

/-- The failed call leaves entries open and number 0 used. The next call reads `a` as from the
start of the other list, with the next number. -/
theorem behindOpenBracket_looks_one_ahead :
    behindOpenBracket.depth = 2 ∧ behindOpenBracket.reader.nextId = 1 ∧
    ∃ (outcome : Except ParseError Expr) (given : Nat) (s' : CountingReader),
      .ok (.reference 0 ⟨.identifier, "a", 1⟩) =
        outcome.map (Expr.mapIds ((CountingReader.start nameThenName).reader.nextId + ·)) ∧
      behindOpenBracket.attempt Counting.expression =
        (outcome.map (Expr.mapIds (behindOpenBracket.reader.nextId + ·)), s') ∧
      s'.reader.cursor bracketThenName = behindOpenBracket.reader.cursor bracketThenName + 1 ∧
      ((CountingReader.start nameThenName).attempt Counting.expression).2.reader.nextId =
        (CountingReader.start nameThenName).reader.nextId + given ∧
      s'.reader.nextId = behindOpenBracket.reader.nextId + given := by
  have answer : ((CountingReader.start nameThenName).attempt Counting.expression).1 =
      .ok (.reference 0 ⟨.identifier, "a", 1⟩) :=
    (CountingReader.attempt_counted .expression _).1.trans rfl
  have call : (CountingReader.start nameThenName).attempt Counting.expression =
      (.ok (.reference 0 ⟨.identifier, "a", 1⟩),
        ((CountingReader.start nameThenName).attempt Counting.expression).2) := by
    rw [← answer]
  have reached' : behindOpenBracket.ReachedOver bracketThenName := ⟨[.expression], rfl⟩
  exact ⟨by decide +kernel, by decide +kernel,
    expression_looks_one_ahead ⟨[], rfl⟩ reached' call (by decide +kernel) (by decide +kernel)⟩

end ScopedExpr
