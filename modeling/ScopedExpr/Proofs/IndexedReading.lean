import ScopedExpr.Proofs.OneTokenAhead

/-!
# Reading by an index

The rules of reading once more, by a reader that keeps all tokens and an index of the next
one. It takes a token by moving the index, and then asks for the token before; it looks at a
token through the index, also behind the last one. Its loops go on until a token stops them,
and nothing but the count of entries stops the rules from calling each other. Both get a
number of rounds, and a step that needs more of them has no outcome.
-/

namespace ScopedExpr

inductive Halt where
  | refused (e : ParseError)
  /-- At this index the token before was asked for, and there is none. -/
  | outside (index : Nat)

/-- A reader with the index of the next token among those that are not comments, the number
of the next reference, the count of open entries, the height of the tree that was finished
last, and a record of the indices at which the token before was asked for, which nothing
reads. -/
structure IndexedReader where
  index : Nat
  nextId : Nat
  depth : Nat
  height : Nat
  looks : List Nat

/-- A step of reading by an index, which has no outcome if it needs more rounds than it gets. -/
abbrev Indexing := ExceptT Halt (StateT IndexedReader Option)

namespace Indexing

/-- How a step ends from a reader, if it ends, and the reader behind it, also when it fails. -/
def outcome {α : Type} (x : Indexing α) (s : IndexedReader) :
    Option (Except Halt α × IndexedReader) := x.run.run s

def outOfRounds {α : Type} : Indexing α := ExceptT.mk fun _ => none

variable (tokens : List Token)

def before? : Nat → Option Token
  | 0 => none
  | i + 1 => (tokens.filter TokenReader.isCode)[i]?

def peek : Indexing Token := return TokenReader.tokenAt tokens (← get).index

def atEnd : Indexing Bool := return (← peek tokens).kind == .endOfText

def previous : Indexing Token := do
  let i := (← get).index
  modify fun s => { s with looks := s.looks ++ [i] }
  (before? tokens i).getDM (throw (.outside i))

/-- Move the index, except at an end, and ask for the token before it. -/
def advance : Indexing Token := do
  if ← atEnd tokens then previous tokens
  else
    modify fun s => { s with index := s.index + 1 }
    previous tokens

def check (wanted : TokenKind → Bool) : Indexing Bool := do
  if ← atEnd tokens then return false
  else return wanted (← peek tokens).kind

def accept (wanted : TokenKind → Bool) : Indexing Bool := do
  if ← check tokens wanted then
    let _ ← advance tokens
    return true
  else return false

/-- Take the next token if it is of a wanted kind, and ask for it once more. -/
def accept? (wanted : TokenKind → Bool) : Indexing (Option Token) := do
  if ← accept tokens wanted then return some (← previous tokens)
  else return none

def refuse {α : Type} (fault : ParseFault) (place : Token) : Indexing α :=
  throw (.refused ⟨fault, place⟩)

def consume (wanted : TokenKind → Bool) (fault : ParseFault) : Indexing Token := do
  if ← check tokens wanted then advance tokens
  else refuse fault (← peek tokens)

def freshId : Indexing Nat :=
  modifyGet fun s => (s.nextId, { s with nextId := s.nextId + 1 })

def enter : Indexing Unit := do
  modify fun s => { s with depth := s.depth + 1 }
  if maxNesting < (← get).depth then refuse .nestedTooDeeply (← peek tokens)

def leaveTo (depth : Nat) : Indexing Unit := modify fun s => { s with depth }

def join (other : Nat) (place : Token) : Indexing Unit := do
  modify fun s => { s with height := max s.height other + 1 }
  if maxNesting < (← get).height then refuse .nestedTooDeeply place

def leaf : Indexing Unit := modify fun s => { s with height := 1 }

/-- Run a rule within an entry, and go back to the count of entries when it succeeds. -/
def entered (rule : Indexing Expr) : Indexing Expr := do
  let base := (← get).depth
  enter tokens
  let e ← rule
  leaveTo base
  return e

def chainFrom (level : Reading.Level) (tighter : Indexing Expr) : Nat → Expr → Indexing Expr
  | 0, _ => outOfRounds
  | rounds + 1, left => do
    match ← accept? tokens level.isOperator with
    | none => return left
    | some operator =>
      let leftHeight := (← get).height
      let right ← tighter
      join leftHeight operator
      chainFrom level tighter rounds (level.node left operator right)

def climb (rounds : Nat) : List Reading.Level → Indexing Expr → Indexing Expr
  | [], operand => operand
  | level :: tighter, operand => do
    let first ← climb rounds tighter operand
    chainFrom tokens level (climb rounds tighter operand) rounds first

def propertiesFrom : Nat → Expr → Indexing Expr
  | 0, _ => outOfRounds
  | rounds + 1, object => do
    if ← accept tokens (· == .punctuator .dot) then
      let name ← consume tokens (· == .identifier) .propertyNameExpected
      join 0 name
      propertiesFrom rounds (.get object name)
    else return object

def group (nested : Indexing Expr) (opening : Token) : Indexing Expr := do
  let inner ← nested
  let _ ← consume tokens (· == .punctuator .rightParen) .closingParenExpected
  join 0 opening
  return .grouping inner

def primary (nested : Indexing Expr) : Indexing Expr := do
  let token ← peek tokens
  match Reading.literal? token.kind with
  | some value =>
    let _ ← advance tokens
    leaf
    return .literal value
  | none =>
    if ← accept tokens (· == .identifier) then
      leaf
      let id ← freshId
      let name ← previous tokens
      return .reference id name
    else if ← accept tokens (· == .punctuator .leftParen) then group tokens nested token
    else refuse .expressionExpected token

def assignmentRule (rounds : Nat) (assignment operand : Indexing Expr) : Indexing Expr := do
  let target ← climb tokens rounds Reading.levels operand
  match ← accept? tokens (· == .punctuator .equal) with
  | none => return target
  | some equals =>
    let targetHeight := (← get).height
    let value ← assignment
    match Reading.assignTo? target value with
    | none => refuse .invalidTarget equals
    | some e =>
      join targetHeight equals
      return e

def operandRule (rounds : Nat) (assignment operand : Indexing Expr) : Indexing Expr := do
  match ← accept? tokens Reading.isUnaryOperator with
  | some operator =>
    let right ← operand
    join 0 operator
    return .unary operator right
  | none =>
    let object ← primary tokens assignment
    propertiesFrom tokens rounds object

mutual

def assignment : Nat → Indexing Expr
  | 0 => outOfRounds
  | rounds + 1 => entered tokens (assignmentRule tokens rounds (assignment rounds) (operand rounds))
termination_by structural rounds => rounds

def operand : Nat → Indexing Expr
  | 0 => outOfRounds
  | rounds + 1 => entered tokens (operandRule tokens rounds (assignment rounds) (operand rounds))
termination_by structural rounds => rounds

end

/-- Each call begins without open entries, whatever the calls before have left. -/
def expression (rounds : Nat) : Indexing Expr := do
  leaveTo 0
  assignment tokens rounds

def wholeExpression (rounds : Nat) : Indexing Expr := do
  let e ← expression tokens rounds
  if ← atEnd tokens then return e
  else refuse .endExpected (← peek tokens)

section Outcomes

variable {α β : Type} {x : Indexing α} {f : α → Indexing β} {s s' : IndexedReader}

theorem outcome_bind_of_ok {a : α} (h : x.outcome s = some (.ok a, s')) :
    (x >>= f).outcome s = (f a).outcome s' := by
  change (x.run s >>= fun p => _) = _
  have run : x.run s = some (.ok a, s') := h
  rw [run]
  rfl

theorem outcome_bind_of_error {e : Halt} (h : x.outcome s = some (.error e, s')) :
    (x >>= f).outcome s = some (.error e, s') := by
  change (x.run s >>= fun p => _) = _
  have run : x.run s = some (.error e, s') := h
  rw [run]
  rfl

theorem outcome_bind_of_none (h : x.outcome s = none) : (x >>= f).outcome s = none := by
  change (x.run s >>= fun p => _) = _
  have run : x.run s = none := h
  rw [run]
  rfl

end Outcomes

/-- Where the first step ends, the second ends in the same way. -/
def EndsAs {α : Type} (x y : Indexing α) : Prop :=
  ∀ s ending, x.outcome s = some ending → y.outcome s = some ending

namespace EndsAs

variable {α β : Type} {tokens : List Token} {x y x' y' : Indexing Expr} {n m : Nat}

theorem refl (x : Indexing α) : EndsAs x x := fun _ _ h => h

theorem outOfRounds (y : Indexing α) : EndsAs Indexing.outOfRounds y := by
  intro s ending h
  have none : (Indexing.outOfRounds : Indexing α).outcome s = none := rfl
  rw [none] at h
  cases h

theorem bind {x y : Indexing α} {f g : α → Indexing β} (first : EndsAs x y)
    (next : ∀ a, EndsAs (f a) (g a)) : EndsAs (x >>= f) (y >>= g) := by
  intro s ending h
  cases run : x.outcome s with
  | none => simp [outcome_bind_of_none run] at h
  | some outcome =>
    obtain ⟨e | a, s'⟩ := outcome
    · rw [outcome_bind_of_error run] at h
      rw [outcome_bind_of_error (first _ _ run), h]
    · rw [outcome_bind_of_ok run] at h
      rw [outcome_bind_of_ok (first _ _ run)]
      exact next a _ _ h

theorem entered (h : EndsAs x y) :
    EndsAs (Indexing.entered tokens x) (Indexing.entered tokens y) := by
  refine .bind (.refl _) fun base => .bind (.refl _) fun _ => ?_
  exact .bind h fun e => .refl _

theorem chainFrom {level : Reading.Level} (h : EndsAs x y) (le : n ≤ m) (left : Expr) :
    EndsAs (Indexing.chainFrom tokens level x n left)
      (Indexing.chainFrom tokens level y m left) := by
  induction n generalizing m left with
  | zero => exact .outOfRounds _
  | succ n ih =>
    obtain ⟨k, rfl⟩ := Nat.exists_eq_add_of_le' (Nat.zero_lt_of_lt le)
    refine .bind (.refl _) fun o => ?_
    cases o with
    | none => exact .refl _
    | some operator =>
      exact .bind (.refl _) fun _ => .bind h fun _ => .bind (.refl _) fun _ =>
        ih (Nat.le_of_succ_le_succ le) _

theorem climb (h : EndsAs x y) (le : n ≤ m) (ls : List Reading.Level) :
    EndsAs (Indexing.climb tokens n ls x) (Indexing.climb tokens m ls y) := by
  induction ls with
  | nil => exact h
  | cons level tighter ih => exact .bind ih fun first => ih.chainFrom le first

theorem propertiesFrom (le : n ≤ m) (object : Expr) :
    EndsAs (Indexing.propertiesFrom tokens n object) (Indexing.propertiesFrom tokens m object) := by
  induction n generalizing m object with
  | zero => exact .outOfRounds _
  | succ n ih =>
    obtain ⟨k, rfl⟩ := Nat.exists_eq_add_of_le' (Nat.zero_lt_of_lt le)
    refine .bind (.refl _) fun more => ?_
    cases more with
    | false => exact .refl _
    | true =>
      exact .bind (.refl _) fun _ => .bind (.refl _) fun _ => ih (Nat.le_of_succ_le_succ le) _

theorem group (h : EndsAs x y) (opening : Token) :
    EndsAs (Indexing.group tokens x opening) (Indexing.group tokens y opening) :=
  .bind h fun _ => .refl _

theorem primary (h : EndsAs x y) :
    EndsAs (Indexing.primary tokens x) (Indexing.primary tokens y) := by
  refine .bind (.refl _) fun token => ?_
  cases Reading.literal? token.kind with
  | some value => exact .refl _
  | none =>
    refine .bind (.refl _) fun isName => ?_
    cases isName with
    | true => exact .refl _
    | false =>
      refine .bind (.refl _) fun isParen => ?_
      cases isParen with
      | true => exact h.group token
      | false => exact .refl _

theorem assignmentRule (hassign : EndsAs x y) (hoperand : EndsAs x' y') (le : n ≤ m) :
    EndsAs (Indexing.assignmentRule tokens n x x') (Indexing.assignmentRule tokens m y y') := by
  refine .bind (hoperand.climb le _) fun target => .bind (.refl _) fun o => ?_
  cases o with
  | none => exact .refl _
  | some equals => exact .bind (.refl _) fun _ => .bind hassign fun _ => .refl _

theorem operandRule (hassign : EndsAs x y) (hoperand : EndsAs x' y') (le : n ≤ m) :
    EndsAs (Indexing.operandRule tokens n x x') (Indexing.operandRule tokens m y y') := by
  refine .bind (.refl _) fun o => ?_
  cases o with
  | none => exact .bind hassign.primary fun object => .propertiesFrom le object
  | some operator => exact .bind hoperand fun _ => .refl _

theorem rules (tokens : List Token) (le : n ≤ m) :
    EndsAs (assignment tokens n) (assignment tokens m) ∧
      EndsAs (operand tokens n) (operand tokens m) := by
  induction n generalizing m with
  | zero => exact ⟨.outOfRounds _, .outOfRounds _⟩
  | succ n ih =>
    obtain ⟨k, rfl⟩ := Nat.exists_eq_add_of_le' (Nat.zero_lt_of_lt le)
    have less : n ≤ k := Nat.le_of_succ_le_succ le
    obtain ⟨hassign, hoperand⟩ := ih less
    exact ⟨(hassign.assignmentRule hoperand less).entered,
      (hassign.operandRule hoperand less).entered⟩

theorem expression (tokens : List Token) (le : n ≤ m) :
    EndsAs (Indexing.expression tokens n) (Indexing.expression tokens m) :=
  .bind (.refl _) fun _ => (rules tokens le).1

end EndsAs

end Indexing

def Call.indexed (tokens : List Token) (rounds : Nat) : Call → Indexing Expr
  | expression => Indexing.expression tokens rounds
  | wholeExpression => Indexing.wholeExpression tokens rounds

theorem Indexing.EndsAs.call (tokens : List Token) {n m : Nat} (le : n ≤ m) (call : Call) :
    EndsAs (call.indexed tokens n) (call.indexed tokens m) := by
  cases call with
  | expression => exact .expression tokens le
  | wholeExpression => exact .bind (.expression tokens le) fun _ => .refl _

namespace IndexedReader

def start : IndexedReader := ⟨0, 0, 0, 0, []⟩

/-- The reader behind some calls, if all of them end. -/
def behindCalls (tokens : List Token) (rounds : Nat) (s : IndexedReader) :
    List Call → Option IndexedReader
  | [] => some s
  | call :: calls =>
    ((call.indexed tokens rounds).outcome s).bind fun ending =>
      behindCalls tokens rounds ending.2 calls

theorem behindCalls_of_le {tokens : List Token} {n m : Nat} {s s' : IndexedReader}
    {calls : List Call} (le : n ≤ m) (h : s.behindCalls tokens n calls = some s') :
    s.behindCalls tokens m calls = some s' := by
  induction calls generalizing s with
  | nil => exact h
  | cons call calls ih =>
    obtain ⟨ending, outcome, rest⟩ := Option.bind_eq_some_iff.1 h
    rw [behindCalls, Indexing.EndsAs.call tokens le call s ending outcome]
    exact ih rest

end IndexedReader

end ScopedExpr
