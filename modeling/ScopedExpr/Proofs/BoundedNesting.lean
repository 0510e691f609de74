import ScopedExpr.Proofs.CountedReading

/-!
# Bounded nesting

The reader with counters takes the same steps as the reader of tokens: the rules of the
latter get as parameters and results what the former finds in its fields. So the bounds on
entries and on heights hold of its fields, at every place of a run and after any calls,
also failed ones.
-/

namespace ScopedExpr

/-- What an operand without an operator is: a primary expression with properties. -/
def Reading.call (nested : Reading Subtree) : Reading Subtree := do
  let object ← primary nested
  propertiesFrom (← get).rest.length object

theorem Reading.yields_call {entries : Nat} :
    Yields (call (assignment entries)) (Expr.Fits 8 (entries + 1)) := by
  intro r t r' run
  obtain ⟨object, r₁, object_run, run₁⟩ := run_bind_eq_ok_iff.1 run
  obtain ⟨read, fits⟩ := yields_primary (yields_rules entries).1 _ _ _ object_run
  exact reads_propertiesFrom _ read fits run₁

namespace CountingReader

/-- Between two places the record grows by entries that there is room for at the first. -/
def Records (s s' : CountingReader) : Prop :=
  ∃ record, s'.moments = s.moments ++ record ∧ Within (maxNesting - s.depth) record

def opened (s : CountingReader) : CountingReader :=
  { s with depth := s.depth + 1, moments := s.moments ++ [.opened] }

def restarted (s : CountingReader) : CountingReader := { s with depth := 0 }

theorem Records.of_eq {s s' : CountingReader} (same : s'.moments = s.moments) : s.Records s' :=
  ⟨[], by rw [same, List.append_nil], .nil _⟩

theorem Records.trans {s s' s'' : CountingReader} (h : s.Records s') (h' : s'.Records s'')
    (depth : s'.depth = s.depth) : s.Records s'' := by
  obtain ⟨a, grown, within⟩ := h
  obtain ⟨b, grown', within'⟩ := h'
  rw [depth] at within'
  exact ⟨a ++ b, by rw [grown', grown, List.append_assoc], within.append within'⟩

/-- An entry that is open while the record grows needs room for one more. -/
theorem Records.entry {s s₁ s' : CountingReader} (room : s.depth < maxNesting)
    (inside : s.opened.Records s₁) (moments : s'.moments = s₁.moments ++ [.closed]) :
    s.Records s' := by
  obtain ⟨record, grown, within⟩ := inside
  have one : maxNesting - s.opened.depth + 1 = maxNesting - s.depth := by
    simp only [opened]
    omega
  refine ⟨.opened :: record ++ [.closed], ?_, one ▸ within.bracket⟩
  rw [moments, grown, opened]
  simp

end CountingReader

open CountingReader

/-- A step with counters, from a place, has the outcome of a step without: the same failure,
or results that belong together, with the count of entries as it was. -/
inductive Follows {α β : Type} (fit : α → β → CountingReader → Prop) (s : CountingReader) :
    EStateM.Result ParseError CountingReader α → EStateM.Result ParseError TokenReader β →
    Prop where
  | ok {a b s'} (records : s.Records s') (depth : s'.depth = s.depth) (fits : fit a b s') :
      Follows fit s (.ok a s') (.ok b s'.reader)
  | error {e s'} (records : s.Records s') : Follows fit s (.error e s') (.error e s'.reader)

def Finished (e : Expr) (t : Subtree) (s : CountingReader) : Prop := t = ⟨e, s.height⟩

theorem Finished.expr {e : Expr} {t : Subtree} {s : CountingReader} (h : Finished e t s) :
    t.expr = e := congrArg Subtree.expr h

namespace Follows

open Counting

variable {α β γ δ : Type} {fit : α → β → CountingReader → Prop}
  {fit' : γ → δ → CountingReader → Prop} {s : CountingReader} {x : Counting α} {y : Reading β}
  {f : α → Counting γ} {g : β → Reading δ}

theorem behind {s₁ : CountingReader} {outcome : EStateM.Result ParseError CountingReader α}
    {plain : EStateM.Result ParseError TokenReader β} (rest : Follows fit s₁ outcome plain)
    (records : s.Records s₁) (depth : s₁.depth = s.depth) : Follows fit s outcome plain := by
  cases rest with
  | ok records' depth' fits => exact .ok (records.trans records' depth) (depth'.trans depth) fits
  | error records' => exact .error (records.trans records' depth)

theorem bind (first : Follows fit s (x.run s) (y.run s.reader))
    (next : ∀ a b s', s'.depth = s.depth → fit a b s' →
      Follows fit' s' ((f a).run s') ((g b).run s'.reader)) :
    Follows fit' s ((x >>= f).run s) ((y >>= g).run s.reader) := by
  rw [EStateM.run_bind, EStateM.run_bind]
  generalize x.run s = outcome, y.run s.reader = plain at first
  cases first with
  | error records => exact .error records
  | ok records depth fits => exact (next _ _ _ depth fits).behind records depth

theorem map_right {outcome : EStateM.Result ParseError CountingReader α} {h : β → δ}
    {fit' : α → δ → CountingReader → Prop} (plain : Follows fit s outcome (y.run s.reader))
    (same : ∀ a b s', fit a b s' → fit' a (h b) s') :
    Follows fit' s outcome ((h <$> y).run s.reader) := by
  change Follows fit' s outcome ((y >>= fun b => Pure.pure (h b)).run s.reader)
  rw [EStateM.run_bind]
  generalize y.run s.reader = result at plain
  cases plain with
  | ok records depth fits => exact .ok records depth (same _ _ _ fits)
  | error records => exact .error records

theorem pure {a : α} {b : β} (fits : fit a b s) :
    Follows fit s ((Pure.pure a : Counting α).run s) ((Pure.pure b : Reading β).run s.reader) :=
  .ok (.of_eq rfl) rfl fits

theorem throw (e : ParseError) :
    Follows fit s ((MonadExcept.throw e : Counting α).run s)
      ((MonadExcept.throw e : Reading β).run s.reader) :=
  .error (.of_eq rfl)

theorem ofReading (step : Reading α) (s : CountingReader) :
    Follows (fun a b s' => a = b ∧ s'.height = s.height) s ((Counting.ofReading step).run s)
      (step.run s.reader) := by
  unfold Counting.ofReading EStateM.run
  simp only
  cases step s.reader with
  | ok a r => exact .ok (.of_eq rfl) rfl ⟨rfl, rfl⟩
  | error e r => exact .error (.of_eq rfl)

theorem failHere (fault : ParseFault) (s : CountingReader) :
    Follows fit s ((Counting.ofReading (Reading.failHere fault)).run s)
      ((Reading.failHere fault : Reading β).run s.reader) :=
  .error (.of_eq rfl)

theorem get {f : CountingReader → Counting γ}
    {plain : EStateM.Result ParseError TokenReader δ}
    (rest : Follows fit' s ((f s).run s) plain) :
    Follows fit' s ((MonadState.get >>= f).run s) plain := rest

theorem join {other a b : Nat} (place : Token) (same : max s.height other = max a b) :
    Follows (fun _ height s' => s'.height = height) s ((Counting.join other place).run s)
      ((Reading.joinHeights a b place).run s.reader) := by
  have counted : (Counting.join other place).run s =
      if maxNesting < max s.height other + 1 then
        .error ⟨.nestedTooDeeply, place⟩ { s with height := max s.height other + 1 }
      else .ok () { s with height := max s.height other + 1 } := by
    unfold Counting.join
    simp only [EStateM.run_bind, EStateM.run_modify, EStateM.run_get]
    split <;> rfl
  rw [counted, Reading.run_joinHeights, ← same]
  split
  · exact .error (.of_eq rfl)
  · exact .ok (.of_eq rfl) rfl rfl

end Follows

/-- From every place where so many entries are open, a rule with counters follows a rule
without. -/
def Tracks (depth : Nat) (rule : Counting Expr) (step : Reading Subtree) : Prop :=
  ∀ s : CountingReader, s.depth = depth → Follows Finished s (rule.run s) (step.run s.reader)

namespace Counting

variable {depth : Nat} {sub : Counting Expr} {step : Reading Subtree} {level : Reading.Level}
  {s : CountingReader}

theorem follows_chainFrom (h : Tracks depth sub step) (bound : Nat) (left : Expr)
    (here : s.depth = depth) :
    Follows Finished s ((chainFrom level sub bound left).run s)
      ((Reading.chainFrom level step bound ⟨left, s.height⟩).run s.reader) := by
  induction bound generalizing left s with
  | zero => exact .pure rfl
  | succ bound ih =>
    refine .bind (.ofReading _ s) ?_
    rintro o _ s₁ depth₁ ⟨rfl, height₁⟩
    cases o with
    | none =>
      rw [← height₁]
      exact .pure rfl
    | some operator =>
      refine .get (.bind (h s₁ (depth₁.trans here)) ?_)
      rintro right _ s₂ depth₂ rfl
      refine .bind (.join operator ?_) ?_
      -- the field is the height on the right now; the one on the left was saved before it
      · rw [height₁]
        exact Nat.max_comm _ _
      · rintro - _ s₃ depth₃ rfl
        exact ih _ (by rw [depth₃, depth₂, depth₁, here])

theorem tracks_climb (h : Tracks depth sub step) (ls : List Reading.Level) :
    Tracks depth (climb ls sub) (Reading.climb ls step) := by
  induction ls with
  | nil => exact h
  | cons level tighter ih =>
    intro s here
    refine .bind (ih s here) ?_
    rintro first _ s₁ depth₁ rfl
    exact follows_chainFrom ih _ first (depth₁.trans here)

theorem follows_propertiesFrom (bound : Nat) (object : Expr) (s : CountingReader) :
    Follows Finished s ((propertiesFrom bound object).run s)
      ((Reading.propertiesFrom bound ⟨object, s.height⟩).run s.reader) := by
  induction bound generalizing object s with
  | zero => exact .pure rfl
  | succ bound ih =>
    refine .bind (.ofReading _ s) ?_
    rintro o _ s₁ - ⟨rfl, height₁⟩
    cases o with
    | none =>
      rw [← height₁]
      exact .pure rfl
    | some dot =>
      refine .bind (.ofReading _ s₁) ?_
      rintro o _ s₂ - ⟨rfl, height₂⟩
      cases o with
      | none => exact .failHere _ s₂
      | some name =>
        refine .bind (.join name (by rw [height₂, height₁])) ?_
        rintro - _ s₃ - rfl
        exact ih _ s₃

theorem tracks_group (h : Tracks depth sub step) (opening : Token) :
    Tracks depth (group sub opening) (Reading.group step opening) := by
  intro s here
  refine .bind (h s here) ?_
  rintro inner _ s₁ - rfl
  refine .bind (.ofReading _ s₁) ?_
  rintro o _ s₂ - ⟨rfl, height₂⟩
  cases o with
  | none => exact .failHere _ s₂
  | some closing =>
    refine .bind (.join opening (by rw [height₂])) ?_
    rintro - _ s₃ - rfl
    exact .pure rfl

section Primary

variable {t : Token} {ts : List Token}

theorem run_primary_literal {v : Value} (hr : s.reader.rest = t :: ts)
    (is : Reading.literal? t.kind = some v) : (primary sub).run s =
      .ok (.literal v) { s with reader := { s.reader with rest := ts }, height := 1 } := by
  simp only [primary, EStateM.run_bind, EStateM.run_get, hr, is]
  rfl

theorem run_primary_identifier (hr : s.reader.rest = t :: ts) (is : t.kind = .identifier) :
    (primary sub).run s = .ok (.reference s.reader.nextId t)
      { s with
        reader := { s.reader with rest := ts, nextId := s.reader.nextId + 1 }
        height := 1 } := by
  simp only [primary, EStateM.run_bind, EStateM.run_get, hr, is, Reading.literal?]
  rfl

theorem run_primary_group (hr : s.reader.rest = t :: ts) (is : t.kind = .punctuator .leftParen) :
    (primary sub).run s =
      (group sub t).run { s with reader := { s.reader with rest := ts } } := by
  simp only [primary, EStateM.run_bind, EStateM.run_get, hr, is, Reading.literal?]
  rfl

theorem run_primary_nil (hr : s.reader.rest = []) :
    (primary sub).run s = .error ⟨.expressionExpected, s.reader.current⟩ s := by
  simp only [primary, EStateM.run_bind, EStateM.run_get, hr]
  rfl

theorem run_primary_other (hr : s.reader.rest = t :: ts)
    (literal : Reading.literal? t.kind = none) (identifier : t.kind ≠ .identifier)
    (paren : t.kind ≠ .punctuator .leftParen) :
    (primary sub).run s = .error ⟨.expressionExpected, t⟩ s := by
  have current : s.reader.current = t := by rw [TokenReader.current, hr]; rfl
  simp only [primary, EStateM.run_bind, EStateM.run_get, hr, literal]
  rw [← current]
  rfl

end Primary

theorem tracks_primary (h : Tracks depth sub step) :
    Tracks depth (primary sub) (Reading.primary step) := by
  intro s here
  cases hr : s.reader.rest with
  | nil =>
    rw [run_primary_nil hr, Reading.run_primary_nil hr]
    exact .error (.of_eq rfl)
  | cons t ts =>
    obtain ⟨v, is⟩ | is | is | ⟨literal, identifier, paren⟩ := Reading.primary_cases t.kind
    · rw [run_primary_literal hr is, Reading.run_primary_literal hr is]
      exact .ok (.of_eq rfl) rfl rfl
    · rw [run_primary_identifier hr is, Reading.run_primary_identifier hr is]
      exact .ok (.of_eq rfl) rfl rfl
    · rw [run_primary_group hr is, Reading.run_primary_group hr is]
      have inside := tracks_group h t { s with reader := { s.reader with rest := ts } } here
      exact inside.behind (.of_eq rfl) rfl
    · rw [run_primary_other hr literal identifier paren,
        Reading.run_primary_other hr literal identifier paren]
      exact .error (.of_eq rfl)

theorem tracks_call (h : Tracks depth sub step) :
    Tracks depth (call sub) (Reading.call step) := by
  intro s here
  refine .bind (tracks_primary h s here) ?_
  rintro object _ s₁ - rfl
  exact follows_propertiesFrom _ object s₁

variable {rule : Counting Expr}

theorem run_entered_of_full (full : maxNesting ≤ s.depth) : (entered rule).run s =
    .error ⟨.nestedTooDeeply, s.reader.current⟩ { s with depth := s.depth + 1 } := by
  have beyond : maxNesting < s.depth + 1 := Nat.lt_succ_of_le full
  simp only [entered, enter, EStateM.run_bind, EStateM.run_get, EStateM.run_modify, if_pos beyond]
  rfl

theorem run_entered_of_room (room : s.depth < maxNesting) : (entered rule).run s =
    (tryFinally (backTo s.depth rule) (note .closed)).run s.opened := by
  have within : ¬ maxNesting < s.depth + 1 := Nat.not_lt.2 room
  simp only [entered, enter, EStateM.run_bind, EStateM.run_get, EStateM.run_modify,
    if_neg within]
  rfl

/-- A failed rule leaves its count of entries as it is, but its entry is over. -/
theorem run_backTo_finally (base : Nat) :
    (tryFinally (backTo base rule) (note .closed)).run s =
      match rule.run s with
      | .ok e s' => .ok e { s' with depth := base, moments := s'.moments ++ [.closed] }
      | .error e s' => .error e { s' with moments := s'.moments ++ [.closed] } := by
  simp only [tryFinally, EStateM.run, Functor.map, tryFinally', EStateM.map, backTo, bind,
    EStateM.bind]
  cases rule s <;> rfl

theorem tracks_entered (room : depth < maxNesting) (inside : Tracks (depth + 1) rule step) :
    Tracks depth (entered rule) step := by
  rintro s rfl
  have rest := inside s.opened rfl
  rw [run_entered_of_room room, run_backTo_finally]
  -- an accepted entry takes no token
  change Follows Finished s _ (step.run s.opened.reader)
  generalize rule.run s.opened = counted, step.run s.opened.reader = plain at rest ⊢
  cases rest with
  | ok records _ finished => exact .ok (records.entry room rfl) rfl finished
  | error records => exact .error (records.entry room rfl)

theorem tracks_entered_of_full (full : maxNesting ≤ depth) :
    Tracks depth (entered rule) (Reading.failHere .nestedTooDeeply) := by
  rintro s rfl
  rw [run_entered_of_full full]
  exact .error (.of_eq rfl)

theorem tracks_refusal (depth : Nat) :
    Tracks depth (entered (ofReading (Reading.failHere .nestedTooDeeply)))
      (Reading.failHere .nestedTooDeeply) := by
  rcases Nat.lt_or_ge depth maxNesting with room | full
  · exact tracks_entered room fun s _ => .failHere _ s
  · exact tracks_entered_of_full full

section Rules

variable {entries : Nat} {assignment operand : Counting Expr}

theorem tracks_assignmentRule (hassign : Tracks depth assignment (Reading.assignment entries))
    (hoperand : Tracks depth operand (Reading.operand entries)) :
    Tracks depth (assignmentRule assignment operand) (Reading.assignment (entries + 1)) := by
  intro s here
  refine .bind (tracks_climb hoperand Reading.levels s here) ?_
  rintro target _ s₁ depth₁ rfl
  refine .bind (.ofReading _ s₁) ?_
  rintro o _ s₂ depth₂ ⟨rfl, height₂⟩
  cases o with
  | none =>
    rw [← height₂]
    exact .pure rfl
  | some equals =>
    refine .get (.bind (hassign s₂ (by rw [depth₂, depth₁, here])) ?_)
    rintro value _ s₃ - rfl
    simp only
    cases Reading.assignTo? target value with
    | none => exact .throw _
    | some e =>
      refine .bind (.join equals ?_) ?_
      · rw [height₂]
        exact Nat.max_comm _ _
      · rintro - _ s₄ - rfl
        exact .pure rfl

theorem tracks_operandRule (hassign : Tracks depth assignment (Reading.assignment entries))
    (hoperand : Tracks depth operand (Reading.operand entries)) :
    Tracks depth (operandRule assignment operand) (Reading.operand (entries + 1)) := by
  intro s here
  refine .bind (.ofReading _ s) ?_
  rintro o _ s₁ depth₁ ⟨rfl, -⟩
  cases o with
  | none => exact tracks_call hassign s₁ (depth₁.trans here)
  | some operator =>
    refine .bind (hoperand s₁ (depth₁.trans here)) ?_
    rintro right _ s₂ - rfl
    refine .bind (.join operator rfl) ?_
    rintro - _ s₃ - rfl
    exact .pure rfl

end Rules

/-- With so many entries open and so many tries, the rules follow those without counters
that have the smaller of what is left of both. -/
theorem tracks_rules (tries depth : Nat) :
    Tracks depth (assignment tries) (Reading.assignment (min tries (maxNesting - depth))) ∧
      Tracks depth (operand tries) (Reading.operand (min tries (maxNesting - depth))) := by
  induction tries generalizing depth with
  | zero =>
    rw [Nat.zero_min]
    exact ⟨tracks_refusal depth, tracks_refusal depth⟩
  | succ tries ih =>
    rcases Nat.lt_or_ge depth maxNesting with room | full
    · -- within the entry there is one less of both
      have left : min (tries + 1) (maxNesting - depth) =
          min tries (maxNesting - (depth + 1)) + 1 := by omega
      obtain ⟨hassign, hoperand⟩ := ih (depth + 1)
      rw [left]
      exact ⟨tracks_entered room (tracks_assignmentRule hassign hoperand),
        tracks_entered room (tracks_operandRule hassign hoperand)⟩
    · rw [Nat.sub_eq_zero_of_le full, Nat.min_zero]
      exact ⟨tracks_entered_of_full full, tracks_entered_of_full full⟩

/-- A rule that succeeds leaves a height that its tree does not exceed, and the count of
entries that it found. -/
theorem keeps_of_tracks {sort : Expr → Prop} {e : Expr} {s' : CountingReader}
    (tracks : Tracks s.depth rule step) (yields : Reading.Yields step sort)
    (run : rule.run s = .ok e s') : e.height ≤ s'.height ∧ s'.depth = s.depth := by
  have follows := tracks s rfl
  rw [run] at follows
  generalize plain : step.run s.reader = outcome at follows
  cases follows with
  | @ok _ t _ _ depth finished =>
    obtain ⟨read, -⟩ := yields _ _ _ plain
    obtain rfl : t = ⟨e, s'.height⟩ := finished
    have counted : s'.height = e.countedHeight := read.height
    rw [counted]
    exact ⟨e.height_le_countedHeight, depth⟩

theorem IsRule.keeps (h : IsRule rule) {e : Expr} {s' : CountingReader}
    (run : rule.run s = .ok e s') : e.height ≤ s'.height ∧ s'.depth = s.depth := by
  cases h with
  | @assignment tries =>
    exact keeps_of_tracks (tracks_rules tries s.depth).1 (Reading.yields_rules _).1 run
  | @operand tries =>
    exact keeps_of_tracks (tracks_rules tries s.depth).2 (Reading.yields_rules _).2 run
  | @operators tries i level =>
    exact keeps_of_tracks (tracks_climb (tracks_rules tries s.depth).2 _)
      (Reading.yields_climb (Reading.yields_rules _).2 level.le) run
  | @call tries =>
    exact keeps_of_tracks (tracks_call (tracks_rules tries s.depth).1) Reading.yields_call run
  | @primary tries =>
    exact keeps_of_tracks (tracks_primary (tracks_rules tries s.depth).1)
      (Reading.yields_primary (Reading.yields_rules _).1) run

theorem follows_expression (s : CountingReader) :
    Follows (fun e f _ => e = f) s.restarted ((assignment maxNesting).run s.restarted)
      (Reading.expression.run s.reader) := by
  have rules := (tracks_rules maxNesting 0).1 s.restarted rfl
  rw [Nat.sub_zero, Nat.min_self] at rules
  exact rules.map_right fun _ _ _ finished => finished.expr.symm

/-- A call goes on as if no entry were open, and has the outcome of the same call without
counters. -/
theorem follows_call (call : Call) (s : CountingReader) :
    Follows (fun e f _ => e = f) s.restarted (call.counted.run s) (call.step.run s.reader) := by
  cases call with
  | expression => exact follows_expression s
  | wholeExpression =>
    refine .bind (follows_expression s) ?_
    rintro e _ s₁ - rfl
    change Follows _ s₁ ((if s₁.reader.rest.isEmpty then Pure.pure e
        else ofReading (Reading.failHere .endExpected) : Counting Expr).run s₁)
      ((if s₁.reader.rest.isEmpty then Pure.pure e
        else Reading.failHere .endExpected : Reading Expr).run s₁.reader)
    split
    · exact .pure rfl
    · exact .failHere _ s₁

end Counting

namespace CountingReader

variable {s : CountingReader}

theorem attempt_counted (call : Call) (s : CountingReader) :
    (s.attempt call.counted).1 = (s.reader.attempt call.step).1 ∧
      (s.attempt call.counted).2.reader = (s.reader.attempt call.step).2 ∧
      ∃ record, (s.attempt call.counted).2.moments = s.moments ++ record ∧
        Within maxNesting record := by
  have follows := Counting.follows_call call s
  unfold attempt TokenReader.attempt
  generalize call.counted.run s = counted, call.step.run s.reader = plain at follows
  cases follows with
  | ok records _ same => exact ⟨congrArg Except.ok same, rfl, records⟩
  | error records => exact ⟨rfl, rfl, records⟩

/-- Any calls have the same answers with counters and without, and never open more entries
than they may. -/
theorem answers_counted (calls : List Call) (s : CountingReader) :
    s.answers calls = s.reader.answers calls ∧
      (s.behindCalls calls).reader = s.reader.behindCalls calls ∧
      ∃ record, (s.behindCalls calls).moments = s.moments ++ record ∧
        Within maxNesting record := by
  induction calls generalizing s with
  | nil => exact ⟨rfl, rfl, [], (List.append_nil _).symm, .nil _⟩
  | cons call calls ih =>
    obtain ⟨answer, reader, first, grown, within⟩ := attempt_counted call s
    obtain ⟨answers, readers, rest, grown', within'⟩ := ih (s.attempt call.counted).2
    rw [reader] at answers readers
    refine ⟨?_, readers, first ++ rest, ?_, within.append within'⟩
    · exact congrArg₂ List.cons answer answers
    · rw [← List.append_assoc, ← grown]
      exact grown'

end CountingReader

/-- Any calls on one reader, also behind calls that failed, give trees within the bound on
heights. With counters they give the same answers; at no moment are more entries open than
the bound allows, and each rule that succeeds leaves a height that its tree does not exceed
and the count of entries that it found. -/
theorem nesting_bounded (tokens : List Token) (calls : List Call) :
    (∀ e, .ok e ∈ (TokenReader.ofTokens tokens).answers calls → e.height ≤ maxNesting) ∧
      (CountingReader.start tokens).answers calls = (TokenReader.ofTokens tokens).answers calls ∧
      Within maxNesting ((CountingReader.start tokens).behindCalls calls).moments ∧
      ∀ rule, Counting.IsRule rule → ∀ s e s', rule.run s = .ok e s' →
        e.height ≤ s'.height ∧ s'.depth = s.depth := by
  obtain ⟨answers, -, record, grown, within⟩ := answers_counted calls (start tokens)
  refine ⟨?_, answers, ?_, fun rule isRule s e s' run => isRule.keeps run⟩
  · intro e given
    obtain ⟨k, read⟩ := List.getElem?_of_mem given
    exact e.height_le_countedHeight.trans (TokenReader.reads_of_answers read).bounded
  · rw [grown]
    exact within

end ScopedExpr
