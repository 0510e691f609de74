import ScopedExpr.Proofs.IndexedReading

/-!
# The index stays in range

The reader with an index takes the same steps as the reader of tokens, whose next tokens are
those from the index on. So every call ends. On its way the index never falls and never passes
the first end, and the token before is asked for only where there is one.
-/

namespace ScopedExpr

open TokenReader

/-- The indices that are looked behind on the way from one index to another: they do not fall,
and each has a token before it. -/
structure Climbs (i j : Nat) (looks : List Nat) : Prop where
  le : i ≤ j
  sorted : looks.Pairwise (· ≤ ·)
  between : ∀ k ∈ looks, i ≤ k ∧ k ≤ j
  positive : ∀ k ∈ looks, 1 ≤ k

namespace Climbs

variable {i j k : Nat} {a b : List Nat}

theorem nil (i : Nat) : Climbs i i [] := ⟨Nat.le_refl i, .nil, nofun, nofun⟩

theorem look (le : i ≤ j) (positive : 1 ≤ j) : Climbs i j [j] where
  le := le
  sorted := List.pairwise_singleton _ j
  between := by simp [le]
  positive := by simp [positive]

theorem append (h : Climbs i j a) (h' : Climbs j k b) : Climbs i k (a ++ b) where
  le := h.le.trans h'.le
  sorted := List.pairwise_append.2 ⟨h.sorted, h'.sorted, fun m mem n mem' =>
    (h.between m mem).2.trans (h'.between n mem').1⟩
  between m mem := by
    rcases List.mem_append.1 mem with mem | mem
    · exact ⟨(h.between m mem).1, (h.between m mem).2.trans h'.le⟩
    · exact ⟨h.le.trans (h'.between m mem).1, (h'.between m mem).2⟩
  positive m mem := (List.mem_append.1 mem).elim (h.positive m) (h'.positive m)

end Climbs

namespace IndexedReader

variable {tokens : List Token} {s s' s'' : IndexedReader}

def reader (tokens : List Token) (s : IndexedReader) : TokenReader where
  rest := (ofTokens tokens).rest.drop s.index
  stop := (ofTokens tokens).stop
  nextId := s.nextId

theorem length_rest_reader :
    (s.reader tokens).rest.length = (ofTokens tokens).rest.length - s.index := List.length_drop

theorem length_rest_reader_le :
    (s.reader tokens).rest.length ≤ (ofTokens tokens).rest.length :=
  List.length_drop.trans_le (Nat.sub_le _ _)

/-- The index has not passed the first end. -/
def Stands (tokens : List Token) (s : IndexedReader) : Prop :=
  s.index ≤ (ofTokens tokens).rest.length

/-- Between two places the index climbs, and does not pass the first end. -/
structure Moves (tokens : List Token) (s s' : IndexedReader) : Prop where
  stands : s'.Stands tokens
  climbs : ∃ looks, s'.looks = s.looks ++ looks ∧ Climbs s.index s'.index looks

theorem Moves.of_eq (stands : s.Stands tokens) (index : s'.index = s.index)
    (looks : s'.looks = s.looks) : s.Moves tokens s' where
  stands := by rwa [Stands, index]
  climbs := ⟨[], by rw [looks, List.append_nil], by rw [index]; exact .nil _⟩

theorem Moves.trans (h : s.Moves tokens s') (h' : s'.Moves tokens s'') :
    s.Moves tokens s'' where
  stands := h'.stands
  climbs := by
    obtain ⟨a, grown, climbs⟩ := h.climbs
    obtain ⟨b, grown', climbs'⟩ := h'.climbs
    exact ⟨a ++ b, by rw [grown', grown, List.append_assoc], climbs.append climbs'⟩

theorem Moves.le (h : s.Moves tokens s') : s.index ≤ s'.index := by
  obtain ⟨looks, -, climbs⟩ := h.climbs
  exact climbs.le

def looked (s : IndexedReader) : IndexedReader := { s with looks := s.looks ++ [s.index] }

def opened (s : IndexedReader) : IndexedReader := { s with depth := s.depth + 1 }

def restarted (s : IndexedReader) : IndexedReader := { s with depth := 0 }

def moved (s : IndexedReader) : IndexedReader := looked { s with index := s.index + 1 }

theorem moves_looked (stands : s.Stands tokens) (positive : 1 ≤ s.index) :
    s.Moves tokens s.looked :=
  ⟨stands, [s.index], rfl, .look (Nat.le_refl _) positive⟩

theorem moves_moved (stands : s.moved.Stands tokens) : s.Moves tokens s.moved :=
  ⟨stands, [s.index + 1], rfl, .look (Nat.le_succ _) (Nat.le_add_left 1 _)⟩

theorem tokenAt_index (stands : s.Stands tokens) :
    tokenAt tokens s.index = (s.reader tokens).current :=
  (shows_ofTokens tokens).token s.index stands

structure Ends (tokens : List Token) (s : IndexedReader) : Prop where
  rest : (s.reader tokens).rest = []
  here : (tokenAt tokens s.index).kind = .endOfText

structure Faces (tokens : List Token) (s : IndexedReader) (t : Token) : Prop where
  rest : (s.reader tokens).rest = t :: (s.moved.reader tokens).rest
  here : tokenAt tokens s.index = t
  code : t.kind ≠ .endOfText
  before : Indexing.before? tokens s.moved.index = some t
  stands : s.moved.Stands tokens

theorem cases_of_stands (stands : s.Stands tokens) :
    s.Ends tokens ∨ ∃ t, s.Faces tokens t := by
  rcases Nat.lt_or_eq_of_le stands with inside | last
  · right
    have code : (tokens.filter isCode)[s.index]? = some (ofTokens tokens).rest[s.index] :=
      List.prefix_iff_getElem?.1 (List.takeWhile_prefix _) s.index inside
    exact ⟨(ofTokens tokens).rest[s.index],
      { rest := List.drop_eq_getElem_cons inside
        here := by rw [tokenAt, code, Option.getD_some]
        code := kind_ne_of_mem_ofTokens (List.getElem_mem inside)
        before := code
        stands := inside }⟩
  · left
    have rest : (s.reader tokens).rest = [] := List.drop_eq_nil_of_le (Nat.le_of_eq last.symm)
    refine ⟨rest, ?_⟩
    rw [tokenAt_index stands, TokenReader.current, rest]
    exact kind_stop_ofTokens tokens

theorem ends_of_none_left (stands : s.Stands tokens)
    (left : (ofTokens tokens).rest.length - s.index ≤ 0) : s.Ends tokens := by
  rcases cases_of_stands stands with h | ⟨t, h⟩
  · exact h
  · have next : s.index + 1 ≤ (ofTokens tokens).rest.length := h.stands
    omega

end IndexedReader

open IndexedReader

/-- A step by an index, from a place, ends as a step of reading does: with the same failure,
or with results that belong together and the count of entries as it was. -/
inductive Retraces {α β : Type} (tokens : List Token) (fit : α → β → IndexedReader → Prop)
    (s : IndexedReader) : Option (Except Halt α × IndexedReader) →
    EStateM.Result ParseError TokenReader β → Prop where
  | ok {a b s'} (moves : s.Moves tokens s') (depth : s'.depth = s.depth) (fits : fit a b s') :
      Retraces tokens fit s (some (.ok a, s')) (.ok b (s'.reader tokens))
  | error {e s'} (moves : s.Moves tokens s') :
      Retraces tokens fit s (some (.error (.refused e), s')) (.error e (s'.reader tokens))

/-- The tree of a rule has the height that the reader behind it tells. -/
def Measured (e : Expr) (t : Subtree) (s : IndexedReader) : Prop := t = ⟨e, s.height⟩

namespace Retraces

variable {α β γ δ : Type} {tokens : List Token} {fit : α → β → IndexedReader → Prop}
  {fit' : γ → δ → IndexedReader → Prop} {s s₁ : IndexedReader} {x : Indexing α} {y : Reading β}
  {f : α → Indexing γ} {g : β → Reading δ} {z : Reading δ}

theorem behind {outcome : Option (Except Halt α × IndexedReader)}
    {plain : EStateM.Result ParseError TokenReader β} (rest : Retraces tokens fit s₁ outcome plain)
    (moves : s.Moves tokens s₁) (depth : s₁.depth = s.depth) :
    Retraces tokens fit s outcome plain := by
  cases rest with
  | ok moves' depth' fits => exact .ok (moves.trans moves') (depth'.trans depth) fits
  | error moves' => exact .error (moves.trans moves')

theorem bind {r : TokenReader} (first : Retraces tokens fit s (x.outcome s₁) (y.run r))
    (next : ∀ a b s', s.Moves tokens s' → s'.depth = s.depth → fit a b s' →
      Retraces tokens fit' s' ((f a).outcome s') ((g b).run (s'.reader tokens))) :
    Retraces tokens fit' s ((x >>= f).outcome s₁) ((y >>= g).run r) := by
  rw [EStateM.run_bind]
  generalize run : x.outcome s₁ = outcome, y.run r = plain at first
  cases first with
  | error moves =>
    rw [Indexing.outcome_bind_of_error run]
    exact .error moves
  | ok moves depth fits =>
    rw [Indexing.outcome_bind_of_ok run]
    exact (next _ _ _ moves depth fits).behind moves depth

/-- A step that the reader of tokens has no part in. -/
theorem alone {a : α} (step : x.outcome s = some (.ok a, s₁)) (moves : s.Moves tokens s₁)
    (same : s₁.reader tokens = s.reader tokens) (depth : s₁.depth = s.depth)
    (rest : Retraces tokens fit' s₁ ((f a).outcome s₁) (z.run (s₁.reader tokens))) :
    Retraces tokens fit' s ((x >>= f).outcome s) (z.run (s.reader tokens)) := by
  rw [Indexing.outcome_bind_of_ok step, ← same]
  exact rest.behind moves depth

theorem pure {a : α} {b : β} (stands : s.Stands tokens) (fits : fit a b s) :
    Retraces tokens fit s ((Pure.pure a : Indexing α).outcome s)
      ((Pure.pure b : Reading β).run (s.reader tokens)) :=
  .ok (.of_eq stands rfl rfl) rfl fits

theorem refuse (fault : ParseFault) (place : Token) (stands : s.Stands tokens) :
    Retraces tokens fit s ((Indexing.refuse fault place : Indexing α).outcome s)
      ((throw ⟨fault, place⟩ : Reading β).run (s.reader tokens)) :=
  .error (.of_eq stands rfl rfl)

theorem get {f : IndexedReader → Indexing γ} {plain : EStateM.Result ParseError TokenReader δ}
    (rest : Retraces tokens fit' s ((f s).outcome s) plain) :
    Retraces tokens fit' s ((MonadState.get >>= f).outcome s) plain := rest

theorem join {other a b : Nat} (place : Token) (stands : s.Stands tokens)
    (same : max s.height other = max a b) :
    Retraces tokens (fun _ height s' => s'.height = height) s
      ((Indexing.join other place).outcome s)
      ((Reading.joinHeights a b place).run (s.reader tokens)) := by
  have indexed : (Indexing.join other place).outcome s =
      if maxNesting < max s.height other + 1 then
        some (.error (.refused ⟨.nestedTooDeeply, place⟩),
          { s with height := max s.height other + 1 })
      else some (.ok (), { s with height := max s.height other + 1 }) := by
    change (if maxNesting < max s.height other + 1 then
        (Indexing.refuse .nestedTooDeeply place : Indexing Unit) else Pure.pure ()).outcome _ = _
    split <;> rfl
  rw [indexed, Reading.run_joinHeights, ← same]
  split
  · exact .error (.of_eq stands rfl rfl)
  · exact .ok (.of_eq stands rfl rfl) rfl rfl

end Retraces

namespace Indexing

variable {tokens : List Token} {s : IndexedReader} {wanted : TokenKind → Bool} {t : Token}

theorem outcome_previous (before : before? tokens s.index = some t) :
    (previous tokens).outcome s = some (.ok t, s.looked) := by
  change ((before? tokens s.index).getDM (throw (.outside s.index)) : Indexing Token).outcome
    s.looked = _
  rw [before]
  rfl

theorem outcome_peek (s : IndexedReader) :
    (peek tokens).outcome s = some (.ok (tokenAt tokens s.index), s) := rfl

theorem outcome_atEnd (s : IndexedReader) : (atEnd tokens).outcome s =
    some (.ok ((tokenAt tokens s.index).kind == .endOfText), s) := rfl

theorem outcome_atEnd_of_ends (h : s.Ends tokens) :
    (atEnd tokens).outcome s = some (.ok true, s) := by
  rw [outcome_atEnd, h.here]
  rfl

theorem outcome_atEnd_of_faces (h : s.Faces tokens t) :
    (atEnd tokens).outcome s = some (.ok false, s) := by
  rw [outcome_atEnd, h.here, beq_false_of_ne h.code]

theorem outcome_advance (h : s.Faces tokens t) :
    (advance tokens).outcome s = some (.ok t, s.moved) :=
  (outcome_bind_of_ok (outcome_atEnd_of_faces h)).trans <|
    (outcome_bind_of_ok rfl).trans (outcome_previous h.before)

theorem outcome_check_of_ends (h : s.Ends tokens) :
    (check tokens wanted).outcome s = some (.ok false, s) :=
  outcome_bind_of_ok (outcome_atEnd_of_ends h)

theorem outcome_check_of_faces (h : s.Faces tokens t) :
    (check tokens wanted).outcome s = some (.ok (wanted t.kind), s) := by
  refine (outcome_bind_of_ok (outcome_atEnd_of_faces h)).trans ?_
  refine (outcome_bind_of_ok (outcome_peek s)).trans ?_
  rw [h.here]
  rfl

theorem outcome_accept_of_pos (h : s.Faces tokens t) (is : wanted t.kind = true) :
    (accept tokens wanted).outcome s = some (.ok true, s.moved) := by
  refine (outcome_bind_of_ok (outcome_check_of_faces h)).trans ?_
  rw [is]
  exact outcome_bind_of_ok (outcome_advance h)

theorem outcome_accept_of_neg (h : (check tokens wanted).outcome s = some (.ok false, s)) :
    (accept tokens wanted).outcome s = some (.ok false, s) :=
  outcome_bind_of_ok h

/-- A reader of either kind takes the next token, or neither does. -/
theorem retraces_accept (stands : s.Stands tokens) (wanted : TokenKind → Bool) :
    Retraces tokens (fun took o s' => took = o.isSome ∧ s'.height = s.height ∧
        ∀ t, o = some t → before? tokens s'.index = some t ∧ s.index < s'.index) s
      ((accept tokens wanted).outcome s) ((Reading.accept? wanted).run (s.reader tokens)) := by
  rcases cases_of_stands stands with h | ⟨t, h⟩
  · rw [outcome_accept_of_neg (outcome_check_of_ends h), Reading.run_accept?_nil h.rest]
    exact .ok (.of_eq stands rfl rfl) rfl ⟨rfl, rfl, nofun⟩
  · cases is : wanted t.kind with
    | false =>
      rw [outcome_accept_of_neg (is ▸ outcome_check_of_faces h),
        Reading.run_accept?_of_neg h.rest is]
      exact .ok (.of_eq stands rfl rfl) rfl ⟨rfl, rfl, nofun⟩
    | true =>
      rw [outcome_accept_of_pos h is, Reading.run_accept?_of_pos h.rest is]
      refine .ok (moves_moved h.stands) rfl ⟨rfl, rfl, ?_⟩
      rintro _ ⟨⟩
      exact ⟨h.before, Nat.lt_succ_self _⟩

theorem retraces_accept? (stands : s.Stands tokens) (wanted : TokenKind → Bool) :
    Retraces tokens (fun o o' s' => o = o' ∧ s'.height = s.height ∧
        (o.isSome → s.index < s'.index)) s
      ((accept? tokens wanted).outcome s) ((Reading.accept? wanted).run (s.reader tokens)) := by
  rw [← bind_pure (Reading.accept? wanted)]
  refine .bind (retraces_accept stands wanted) ?_
  rintro _ o s' moves - ⟨rfl, height, took⟩
  cases o with
  | none => exact .pure moves.stands ⟨rfl, height, nofun⟩
  | some t =>
    obtain ⟨before, further⟩ := took t rfl
    exact .alone (outcome_previous before)
      (moves_looked moves.stands (Nat.zero_lt_of_lt further)) rfl rfl
      (.pure moves.stands ⟨rfl, height, fun _ => further⟩)

theorem outcome_accept?_of_ends (h : s.Ends tokens) :
    (accept? tokens wanted).outcome s = some (.ok none, s) :=
  outcome_bind_of_ok (outcome_accept_of_neg (outcome_check_of_ends h))

theorem outcome_refuse_here {α : Type} (fault : ParseFault) (stands : s.Stands tokens) :
    (peek tokens >>= refuse fault : Indexing α).outcome s =
      some (.error (.refused ⟨fault, (s.reader tokens).current⟩), s) := by
  rw [outcome_bind_of_ok (outcome_peek s), tokenAt_index stands]
  rfl

theorem outcome_consume_of_pos {fault : ParseFault} (h : s.Faces tokens t)
    (is : wanted t.kind = true) :
    (consume tokens wanted fault).outcome s = some (.ok t, s.moved) := by
  refine (outcome_bind_of_ok (outcome_check_of_faces h)).trans ?_
  rw [is]
  exact outcome_advance h

theorem outcome_consume_of_neg {fault : ParseFault} (stands : s.Stands tokens)
    (h : (check tokens wanted).outcome s = some (.ok false, s)) :
    (consume tokens wanted fault).outcome s =
      some (.error (.refused ⟨fault, (s.reader tokens).current⟩), s) :=
  (outcome_bind_of_ok h).trans (outcome_refuse_here fault stands)

/-- Taking a token that must be there is taking one if it is there, or failing. -/
theorem retraces_consume {γ δ : Type} {fit : γ → δ → IndexedReader → Prop}
    {f : Token → Indexing γ} {g : Option Token → Reading δ} {fault : ParseFault}
    (stands : s.Stands tokens) (missing : g none = Reading.failHere fault)
    (next : ∀ t s', s.Moves tokens s' → s'.height = s.height →
      Retraces tokens fit s' ((f t).outcome s') ((g (some t)).run (s'.reader tokens))) :
    Retraces tokens fit s ((consume tokens wanted fault >>= f).outcome s)
      ((Reading.accept? wanted >>= g).run (s.reader tokens)) := by
  have fails (h : (check tokens wanted).outcome s = some (.ok false, s)) :
      Retraces tokens fit s ((consume tokens wanted fault >>= f).outcome s)
        ((g none).run (s.reader tokens)) := by
    rw [outcome_bind_of_error (outcome_consume_of_neg stands h), missing]
    exact .error (.of_eq stands rfl rfl)
  rcases cases_of_stands stands with h | ⟨t, h⟩
  · rw [Reading.run_bind_of_ok (Reading.run_accept?_nil h.rest)]
    exact fails (outcome_check_of_ends h)
  · cases is : wanted t.kind with
    | false =>
      rw [Reading.run_bind_of_ok (Reading.run_accept?_of_neg h.rest is)]
      exact fails (is ▸ outcome_check_of_faces h)
    | true =>
      rw [Reading.run_bind_of_ok (Reading.run_accept?_of_pos h.rest is),
        outcome_bind_of_ok (outcome_consume_of_pos h is)]
      have moves := moves_moved h.stands
      exact (next t s.moved moves rfl).behind moves rfl

end Indexing

/-- From every place where so many entries are open and the first end is not passed, a rule by
an index retraces a rule of reading. -/
def Mirrors (tokens : List Token) (depth : Nat) (rule : Indexing Expr) (step : Reading Subtree) :
    Prop :=
  ∀ s : IndexedReader, s.Stands tokens → s.depth = depth →
    Retraces tokens Measured s (rule.outcome s) (step.run (s.reader tokens))

namespace Indexing

variable {tokens : List Token} {depth entries rounds : Nat} {sub : Indexing Expr}
  {step : Reading Subtree} {s : IndexedReader}

/-- Each round but the last takes an operator, so the rounds outlast the tokens that are left. -/
theorem retraces_chainFrom {level : Reading.Level} {bound : Nat}
    (h : Mirrors tokens depth sub step) (left : Expr) (stands : s.Stands tokens)
    (here : s.depth = depth) (enough : (ofTokens tokens).rest.length - s.index ≤ bound)
    (more : bound < rounds) :
    Retraces tokens Measured s ((chainFrom tokens level sub rounds left).outcome s)
      ((Reading.chainFrom level step bound ⟨left, s.height⟩).run (s.reader tokens)) := by
  induction bound generalizing left s rounds with
  | zero =>
    obtain ⟨rounds, rfl⟩ := Nat.exists_eq_add_of_le' more
    have ends := ends_of_none_left stands enough
    rw [chainFrom, outcome_bind_of_ok (outcome_accept?_of_ends ends)]
    exact .pure stands rfl
  | succ bound ih =>
    obtain ⟨rounds, rfl⟩ := Nat.exists_eq_add_of_le' (Nat.zero_lt_of_lt more)
    refine .bind (retraces_accept? stands _) ?_
    rintro o _ s₁ moves₁ depth₁ ⟨rfl, height₁, took⟩
    cases o with
    | none =>
      rw [← height₁]
      exact .pure moves₁.stands rfl
    | some operator =>
      refine .get (.bind (h s₁ moves₁.stands (depth₁.trans here)) ?_)
      rintro right _ s₂ moves₂ depth₂ rfl
      refine .bind (.join operator moves₂.stands ?_) ?_
      -- the field is the height on the right now; the one on the left was saved before it
      · rw [height₁]
        exact Nat.max_comm _ _
      · rintro - _ s₃ moves₃ depth₃ rfl
        refine ih _ moves₃.stands (by rw [depth₃, depth₂, depth₁, here]) ?_
          (Nat.lt_of_succ_lt_succ more)
        have further : s₁.index ≤ s₃.index := moves₂.le.trans moves₃.le
        have taken : s.index < s₁.index := took rfl
        omega

theorem mirrors_climb (h : Mirrors tokens depth sub step)
    (enough : (ofTokens tokens).rest.length < rounds) (ls : List Reading.Level) :
    Mirrors tokens depth (climb tokens rounds ls sub) (Reading.climb ls step) := by
  induction ls with
  | nil => exact h
  | cons level tighter ih =>
    intro s stands here
    refine .bind (ih s stands here) ?_
    rintro first _ s₁ moves₁ depth₁ rfl
    exact retraces_chainFrom ih first moves₁.stands (depth₁.trans here)
      (Nat.le_of_eq length_rest_reader.symm) (length_rest_reader_le.trans_lt enough)

theorem retraces_propertiesFrom {bound : Nat} (object : Expr) (stands : s.Stands tokens)
    (enough : (ofTokens tokens).rest.length - s.index ≤ bound) (more : bound < rounds) :
    Retraces tokens Measured s ((propertiesFrom tokens rounds object).outcome s)
      ((Reading.propertiesFrom bound ⟨object, s.height⟩).run (s.reader tokens)) := by
  induction bound generalizing object s rounds with
  | zero =>
    obtain ⟨rounds, rfl⟩ := Nat.exists_eq_add_of_le' more
    have ends := ends_of_none_left stands enough
    rw [propertiesFrom,
      outcome_bind_of_ok (outcome_accept_of_neg (outcome_check_of_ends ends))]
    exact .pure stands rfl
  | succ bound ih =>
    obtain ⟨rounds, rfl⟩ := Nat.exists_eq_add_of_le' (Nat.zero_lt_of_lt more)
    refine .bind (retraces_accept stands _) ?_
    rintro _ o s₁ moves₁ - ⟨rfl, height₁, took⟩
    cases o with
    | none =>
      rw [← height₁]
      exact .pure moves₁.stands rfl
    | some dot =>
      refine retraces_consume moves₁.stands rfl ?_
      intro name s₂ moves₂ height₂
      refine .bind (.join name moves₂.stands (by rw [height₂, height₁])) ?_
      rintro - _ s₃ moves₃ - rfl
      refine ih _ moves₃.stands ?_ (Nat.lt_of_succ_lt_succ more)
      have taken : s.index < s₁.index := (took dot rfl).2
      have further : s₁.index ≤ s₃.index := moves₂.le.trans moves₃.le
      omega

theorem mirrors_group (h : Mirrors tokens depth sub step) (opening : Token) :
    Mirrors tokens depth (group tokens sub opening) (Reading.group step opening) := by
  intro s stands here
  refine .bind (h s stands here) ?_
  rintro inner _ s₁ moves₁ - rfl
  refine retraces_consume moves₁.stands rfl ?_
  intro closing s₂ moves₂ height₂
  refine .bind (.join opening moves₂.stands (by rw [height₂])) ?_
  rintro - _ s₃ moves₃ - rfl
  exact .pure moves₃.stands rfl

section Primary

variable {t : Token}

theorem outcome_primary_literal {v : Value} (h : s.Faces tokens t)
    (is : Reading.literal? t.kind = some v) :
    (primary tokens sub).outcome s = some (.ok (.literal v), { s.moved with height := 1 }) := by
  rw [primary, outcome_bind_of_ok (outcome_peek s), h.here, is]
  exact outcome_bind_of_ok (outcome_advance h)

theorem outcome_primary_identifier (h : s.Faces tokens t) (is : t.kind = .identifier) :
    (primary tokens sub).outcome s = some (.ok (.reference s.nextId t),
      { s.moved.looked with nextId := s.nextId + 1, height := 1 }) := by
  have next : (accept tokens (· == .identifier)).outcome s = some (.ok true, s.moved) :=
    outcome_accept_of_pos h (by rw [is]; rfl)
  have before : before? tokens
      ({ s.moved with nextId := s.nextId + 1, height := 1 } : IndexedReader).index = some t :=
    h.before
  rw [primary, outcome_bind_of_ok (outcome_peek s), h.here, is]
  exact (outcome_bind_of_ok next).trans (outcome_bind_of_ok (outcome_previous before))

theorem outcome_primary_group (h : s.Faces tokens t) (is : t.kind = .punctuator .leftParen) :
    (primary tokens sub).outcome s = (group tokens sub t).outcome s.moved := by
  have notName : (accept tokens (· == .identifier)).outcome s = some (.ok false, s) :=
    outcome_accept_of_neg ((outcome_check_of_faces h).trans (by rw [is]; rfl))
  have next : (accept tokens (· == .punctuator .leftParen)).outcome s =
      some (.ok true, s.moved) :=
    outcome_accept_of_pos h (by rw [is]; rfl)
  rw [primary, outcome_bind_of_ok (outcome_peek s), h.here, is]
  exact (outcome_bind_of_ok notName).trans (outcome_bind_of_ok next)

theorem outcome_primary_other (stands : s.Stands tokens)
    (literal : Reading.literal? (tokenAt tokens s.index).kind = none)
    (name : (check tokens (· == .identifier)).outcome s = some (.ok false, s))
    (paren : (check tokens (· == .punctuator .leftParen)).outcome s = some (.ok false, s)) :
    (primary tokens sub).outcome s =
      some (.error (.refused ⟨.expressionExpected, (s.reader tokens).current⟩), s) := by
  rw [primary, outcome_bind_of_ok (outcome_peek s), literal, ← tokenAt_index stands]
  exact (outcome_bind_of_ok (outcome_accept_of_neg name)).trans
    (outcome_bind_of_ok (outcome_accept_of_neg paren))

end Primary

theorem mirrors_primary (h : Mirrors tokens depth sub step) :
    Mirrors tokens depth (primary tokens sub) (Reading.primary step) := by
  intro s stands here
  rcases cases_of_stands stands with ends | ⟨t, faces⟩
  · rw [Reading.run_primary_nil ends.rest,
      outcome_primary_other stands (by rw [ends.here]; rfl) (outcome_check_of_ends ends)
        (outcome_check_of_ends ends)]
    exact .error (.of_eq stands rfl rfl)
  · have moves := moves_moved faces.stands
    obtain ⟨v, is⟩ | is | is | ⟨literal, name, paren⟩ := Reading.primary_cases t.kind
    · rw [outcome_primary_literal faces is, Reading.run_primary_literal faces.rest is]
      exact .ok (moves.trans (.of_eq moves.stands rfl rfl)) rfl rfl
    · rw [outcome_primary_identifier faces is, Reading.run_primary_identifier faces.rest is]
      have looked := moves_looked moves.stands (Nat.le_add_left 1 _)
      exact .ok ((moves.trans looked).trans (.of_eq looked.stands rfl rfl)) rfl rfl
    · rw [outcome_primary_group faces is, Reading.run_primary_group faces.rest is]
      exact (mirrors_group h t s.moved moves.stands here).behind moves rfl
    · have current : (s.reader tokens).current = t := by rw [← tokenAt_index stands, faces.here]
      rw [Reading.run_primary_other faces.rest literal name paren,
        outcome_primary_other stands (by rw [faces.here, literal])
          ((outcome_check_of_faces faces).trans (by rw [beq_false_of_ne name]))
          ((outcome_check_of_faces faces).trans (by rw [beq_false_of_ne paren])), current]
      exact .error (.of_eq stands rfl rfl)

theorem outcome_entered_of_full (full : maxNesting ≤ s.depth) (stands : s.Stands tokens) :
    (entered tokens sub).outcome s =
      some (.error (.refused ⟨.nestedTooDeeply, (s.reader tokens).current⟩), s.opened) := by
  have beyond : maxNesting < s.opened.depth := Nat.lt_succ_of_le full
  have entry : (enter tokens).outcome s =
      some (.error (.refused ⟨.nestedTooDeeply, (s.reader tokens).current⟩), s.opened) := by
    change (if maxNesting < s.opened.depth then peek tokens >>= refuse .nestedTooDeeply
      else pure () : Indexing Unit).outcome s.opened = _
    rw [if_pos beyond]
    exact outcome_refuse_here (s := s.opened) _ stands
  exact (outcome_bind_of_ok rfl).trans (outcome_bind_of_error entry)

theorem outcome_entered_of_room (room : s.depth < maxNesting) : (entered tokens sub).outcome s =
    (do
      let e ← sub
      leaveTo s.depth
      return e : Indexing Expr).outcome s.opened := by
  have within : ¬ maxNesting < s.opened.depth := Nat.not_lt.2 room
  have entry : (enter tokens).outcome s = some (.ok (), s.opened) := by
    change (if maxNesting < s.opened.depth then peek tokens >>= refuse .nestedTooDeeply
      else pure () : Indexing Unit).outcome s.opened = _
    rw [if_neg within]
    rfl
  exact (outcome_bind_of_ok rfl).trans (outcome_bind_of_ok entry)

theorem mirrors_entered_of_full (full : maxNesting ≤ depth) :
    Mirrors tokens depth (entered tokens sub) (Reading.failHere .nestedTooDeeply) := by
  rintro s stands rfl
  rw [outcome_entered_of_full full stands]
  exact .error (.of_eq stands rfl rfl)

theorem mirrors_entered (room : depth < maxNesting)
    (inside : Mirrors tokens (depth + 1) sub step) :
    Mirrors tokens depth (entered tokens sub) step := by
  rintro s stands rfl
  have rest := inside s.opened stands rfl
  have entry : s.Moves tokens s.opened := .of_eq stands rfl rfl
  rw [outcome_entered_of_room room]
  -- an accepted entry takes no token
  change Retraces tokens Measured s _ (step.run (s.opened.reader tokens))
  generalize run : sub.outcome s.opened = outcome, step.run (s.opened.reader tokens) = plain
    at rest
  cases rest with
  | error moves =>
    rw [outcome_bind_of_error run]
    exact .error (entry.trans moves)
  | ok moves _ measured =>
    rw [outcome_bind_of_ok run]
    exact .ok ((entry.trans moves).trans (.of_eq moves.stands rfl rfl)) rfl measured

section Rules

variable {nested operand : Indexing Expr}

theorem mirrors_assignmentRule
    (hassign : Mirrors tokens depth nested (Reading.assignment entries))
    (hoperand : Mirrors tokens depth operand (Reading.operand entries))
    (enough : (ofTokens tokens).rest.length < rounds) :
    Mirrors tokens depth (assignmentRule tokens rounds nested operand)
      (Reading.assignment (entries + 1)) := by
  intro s stands here
  refine .bind (mirrors_climb hoperand enough Reading.levels s stands here) ?_
  rintro target _ s₁ moves₁ depth₁ rfl
  refine .bind (retraces_accept? moves₁.stands _) ?_
  rintro o _ s₂ moves₂ depth₂ ⟨rfl, height₂, -⟩
  cases o with
  | none =>
    rw [← height₂]
    exact .pure moves₂.stands rfl
  | some equals =>
    refine .get (.bind (hassign s₂ moves₂.stands (by rw [depth₂, depth₁, here])) ?_)
    rintro value _ s₃ moves₃ - rfl
    simp only
    cases Reading.assignTo? target value with
    | none => exact .refuse _ _ moves₃.stands
    | some e =>
      refine .bind (.join equals moves₃.stands ?_) ?_
      · rw [height₂]
        exact Nat.max_comm _ _
      · rintro - _ s₄ moves₄ - rfl
        exact .pure moves₄.stands rfl

theorem mirrors_operandRule
    (hassign : Mirrors tokens depth nested (Reading.assignment entries))
    (hoperand : Mirrors tokens depth operand (Reading.operand entries))
    (enough : (ofTokens tokens).rest.length < rounds) :
    Mirrors tokens depth (operandRule tokens rounds nested operand)
      (Reading.operand (entries + 1)) := by
  intro s stands here
  refine .bind (retraces_accept? stands _) ?_
  rintro o _ s₁ moves₁ depth₁ ⟨rfl, -, -⟩
  cases o with
  | none =>
    refine .bind (mirrors_primary hassign s₁ moves₁.stands (depth₁.trans here)) ?_
    rintro object _ s₂ moves₂ - rfl
    exact retraces_propertiesFrom object moves₂.stands (Nat.le_of_eq length_rest_reader.symm)
      (length_rest_reader_le.trans_lt enough)
  | some operator =>
    refine .bind (hoperand s₁ moves₁.stands (depth₁.trans here)) ?_
    rintro right _ s₂ moves₂ - rfl
    refine .bind (.join operator moves₂.stands rfl) ?_
    rintro - _ s₃ moves₃ - rfl
    exact .pure moves₃.stands rfl

end Rules

/-- The entries that are open and those that are left are all that are allowed, so the rounds
last for the tokens and the entries that are left. -/
theorem mirrors_rules (tokens : List Token) (total : depth + entries = maxNesting)
    (enough : (ofTokens tokens).rest.length + entries < rounds) :
    Mirrors tokens depth (assignment tokens rounds) (Reading.assignment entries) ∧
      Mirrors tokens depth (operand tokens rounds) (Reading.operand entries) := by
  induction entries generalizing depth rounds with
  | zero =>
    obtain ⟨rounds, rfl⟩ := Nat.exists_eq_add_of_le' (Nat.zero_lt_of_lt enough)
    have full : maxNesting ≤ depth := Nat.le_of_eq total.symm
    exact ⟨mirrors_entered_of_full full, mirrors_entered_of_full full⟩
  | succ entries ih =>
    obtain ⟨rounds, rfl⟩ := Nat.exists_eq_add_of_le' (Nat.zero_lt_of_lt enough)
    have room : depth < maxNesting := by omega
    have inside : depth + 1 + entries = maxNesting := by omega
    have loops : (ofTokens tokens).rest.length < rounds := by omega
    obtain ⟨hassign, hoperand⟩ := ih inside (Nat.lt_of_succ_lt_succ enough)
    exact ⟨mirrors_entered room (mirrors_assignmentRule hassign hoperand loops),
      mirrors_entered room (mirrors_operandRule hassign hoperand loops)⟩

variable (enough : (ofTokens tokens).rest.length + maxNesting < rounds)

include enough

theorem retraces_expression (stands : s.Stands tokens) :
    Retraces tokens (fun e f _ => e = f) s.restarted ((expression tokens rounds).outcome s)
      (Reading.expression.run (s.reader tokens)) := by
  have rule := (mirrors_rules tokens (Nat.zero_add maxNesting) enough).1 s.restarted stands rfl
  have restart : (expression tokens rounds).outcome s =
      (assignment tokens rounds >>= pure).outcome s.restarted :=
    (outcome_bind_of_ok rfl).trans (by rw [bind_pure]; rfl)
  rw [restart, Reading.expression, ← bind_pure_comp]
  refine .bind rule ?_
  rintro e _ s₁ moves₁ - rfl
  exact .pure moves₁.stands rfl

/-- A call goes on as if no entry were open, and ends as the same call without an index. -/
theorem retraces_call (call : Call) (stands : s.Stands tokens) :
    Retraces tokens (fun e f _ => e = f) s.restarted ((call.indexed tokens rounds).outcome s)
      (call.step.run (s.reader tokens)) := by
  cases call with
  | expression => exact retraces_expression enough stands
  | wholeExpression =>
    refine .bind (retraces_expression enough stands) ?_
    rintro e _ s₁ moves₁ - rfl
    have stands₁ := moves₁.stands
    change Retraces _ _ s₁ _ ((if (s₁.reader tokens).rest.isEmpty then Pure.pure e
      else Reading.failHere .endExpected : Reading Expr).run (s₁.reader tokens))
    rcases cases_of_stands stands₁ with ends | ⟨t, faces⟩
    · rw [outcome_bind_of_ok (outcome_atEnd_of_ends ends), ends.rest]
      exact .pure stands₁ rfl
    · rw [outcome_bind_of_ok (outcome_atEnd_of_faces faces), faces.rest]
      change Retraces _ _ s₁ ((peek tokens >>= refuse .endExpected : Indexing Expr).outcome s₁) _
      rw [outcome_refuse_here .endExpected stands₁]
      exact .error (.of_eq stands₁ rfl rfl)

end Indexing

namespace IndexedReader

variable {tokens : List Token} {s : IndexedReader}

theorem stands_start (tokens : List Token) : start.Stands tokens := Nat.zero_le _

theorem Stands.le_length (h : s.Stands tokens) : s.index ≤ (tokens.filter isCode).length :=
  h.trans (List.takeWhile_prefix _).length_le

theorem Stands.kind_ne (h : s.Stands tokens) :
    ∀ t ∈ (tokens.filter isCode).take s.index, t.kind ≠ .endOfText := by
  intro t mem
  have split : tokens.filter isCode = (ofTokens tokens).rest ++
      (tokens.filter isCode).dropWhile (·.kind != .endOfText) :=
    List.takeWhile_append_dropWhile.symm
  rw [split, List.take_append_of_le_length h] at mem
  exact kind_ne_of_mem_ofTokens (List.mem_of_mem_take mem)

variable {rounds : Nat} (enough : (ofTokens tokens).rest.length + maxNesting < rounds)

include enough

/-- A call ends, with the outcome of the same call without an index. -/
theorem exists_outcome (call : Call) (stands : s.Stands tokens) :
    ∃ s', (call.indexed tokens rounds).outcome s =
        some (((s.reader tokens).attempt call.step).1.mapError .refused, s') ∧
      s'.reader tokens = ((s.reader tokens).attempt call.step).2 ∧ s.Moves tokens s' := by
  have retraces := Indexing.retraces_call enough call stands
  have restart : s.Moves tokens s.restarted := .of_eq stands rfl rfl
  unfold attempt
  generalize (call.indexed tokens rounds).outcome s = outcome,
    call.step.run (s.reader tokens) = plain at retraces
  cases retraces with
  | ok moves _ same => exact ⟨_, same ▸ rfl, rfl, restart.trans moves⟩
  | error moves => exact ⟨_, rfl, rfl, restart.trans moves⟩

theorem exists_behindCalls (calls : List Call) (stands : s.Stands tokens) :
    ∃ s', s.behindCalls tokens rounds calls = some s' ∧
      s'.reader tokens = (s.reader tokens).behindCalls calls ∧ s.Moves tokens s' := by
  induction calls generalizing s with
  | nil => exact ⟨s, rfl, rfl, .of_eq stands rfl rfl⟩
  | cons call calls ih =>
    obtain ⟨s₁, outcome, reader, moves⟩ := exists_outcome enough call stands
    obtain ⟨s', behind, readers, moves'⟩ := ih moves.stands
    refine ⟨s', ?_, ?_, moves.trans moves'⟩
    · rw [behindCalls, outcome, Option.bind_some, behind]
    · rw [readers, reader]
      rfl

end IndexedReader

theorem Expr.Spells.ne_nil {e : Expr} {ts : List Token} (h : e.Spells ts) : ts ≠ [] := by
  cases h <;> simp

/-- Over any tokens, every call on one reader ends, also behind calls that failed: there are
rounds enough if they are more than the tokens and the entries that are allowed. A call has the
outcome of the same call on the reader of tokens, so the token before is never asked for where
there is none. It does not move the index back, nor beyond the tokens that are not comments,
nor past the first end, and moves it on when it succeeds. The token before is asked for on the
way at indices that do not fall and are at least 1. -/
theorem index_safe (tokens : List Token) (calls : List Call) (call : Call) :
    ∃ s s', (∀ rounds, (tokens.filter isCode).length + maxNesting < rounds →
        IndexedReader.start.behindCalls tokens rounds calls = some s ∧
        (call.indexed tokens rounds).outcome s =
          some (((s.reader tokens).attempt call.step).1.mapError .refused, s')) ∧
      s.reader tokens = (ofTokens tokens).behindCalls calls ∧
      s'.reader tokens = ((s.reader tokens).attempt call.step).2 ∧
      s.index ≤ s'.index ∧ s'.index ≤ (tokens.filter isCode).length ∧
      (∀ t ∈ (tokens.filter isCode).take s'.index, t.kind ≠ .endOfText) ∧
      (∃ looks, s'.looks = s.looks ++ looks ∧ looks.Pairwise (· ≤ ·) ∧
        ∀ i ∈ looks, 1 ≤ i ∧ s.index ≤ i ∧ i ≤ s'.index) ∧
      ∀ e, ((s.reader tokens).attempt call.step).1 = .ok e → s.index < s'.index := by
  have length_le : (ofTokens tokens).rest.length ≤ (tokens.filter isCode).length :=
    (List.takeWhile_prefix _).length_le
  have enough := Nat.lt_succ_of_le (Nat.add_le_add_right length_le maxNesting)
  obtain ⟨s, behind, reader, moved⟩ :=
    IndexedReader.exists_behindCalls enough calls (IndexedReader.stands_start tokens)
  obtain ⟨s', outcome, reader', moves⟩ := IndexedReader.exists_outcome enough call moved.stands
  obtain ⟨looks, grown, climbs⟩ := moves.climbs
  have ends : ∀ rounds, (tokens.filter isCode).length + maxNesting < rounds →
      IndexedReader.start.behindCalls tokens rounds calls = some s ∧
      (call.indexed tokens rounds).outcome s =
        some (((s.reader tokens).attempt call.step).1.mapError .refused, s') := fun rounds more =>
    ⟨behindCalls_of_le more behind, Indexing.EndsAs.call tokens more call s _ outcome⟩
  refine ⟨s, s', ends, reader, reader', climbs.le, moves.stands.le_length, moves.stands.kind_ne,
    ⟨looks, grown, climbs.sorted, fun i mem => ⟨climbs.positive i mem, climbs.between i mem⟩⟩,
    fun e success => ?_⟩
  have attempted : (s.reader tokens).attempt call.step = (.ok e, s'.reader tokens) :=
    Prod.ext success reader'.symm
  obtain ⟨taken, spelled, rest⟩ := (reads_of_call attempted).spelled
  have some := List.length_pos_iff.2 spelled.ne_nil
  have length := congrArg List.length rest
  rw [List.length_append, length_rest_reader, length_rest_reader] at length
  omega

end ScopedExpr
