import ScopedExpr.Proofs.ReferenceNumbering

/-!
# Reading with counters

The rules of reading once more, by a reader that counts as it goes: how many rule entries
are open, and how high the tree is that was finished last. Both counters are fields, which
every rule overwrites; a rule that fails leaves them as they are. Beside them the reader
keeps a record of when entries were opened and closed, which nothing reads.

Without its counters this reader takes the same steps as the reader of tokens.
-/

namespace ScopedExpr

/-- A rule entry is accepted, or the rule that was entered ends. -/
inductive Moment where
  | opened
  | closed
deriving DecidableEq

/-- A reader with the number of open entries, the height of the tree that was finished last,
and a record of the entries. -/
structure CountingReader where
  reader : TokenReader
  depth : Nat
  height : Nat
  moments : List Moment

/-- A step of reading with counters; what was counted stays when a step fails. -/
abbrev Counting := EStateM ParseError CountingReader

namespace Counting

/-- A step that leaves the counters alone. -/
def ofReading {α : Type} (step : Reading α) : Counting α := fun s =>
  match step.run s.reader with
  | .ok a r => .ok a { s with reader := r }
  | .error e r => .error e { s with reader := r }

def note (moment : Moment) : Counting Unit :=
  modify fun s => { s with moments := s.moments ++ [moment] }

def enter : Counting Unit := do
  modify fun s => { s with depth := s.depth + 1 }
  if maxNesting < (← get).depth then ofReading (Reading.failHere .nestedTooDeeply)

/-- Run a rule, and go back to a count of entries when it succeeds. -/
def backTo (depth : Nat) (rule : Counting Expr) : Counting Expr := do
  let e ← rule
  modify fun s => { s with depth }
  return e

/-- Run a rule within an entry, which stays open until the rule ends, also when it fails. -/
def entered (rule : Counting Expr) : Counting Expr := do
  let base := (← get).depth
  enter
  note .opened
  tryFinally (backTo base rule) (note .closed)

/-- Count a node over the tree that was finished last and one of another height. -/
def join (other : Nat) (place : Token) : Counting Unit := do
  modify fun s => { s with height := max s.height other + 1 }
  if maxNesting < (← get).height then throw ⟨.nestedTooDeeply, place⟩

def chainFrom (level : Reading.Level) (operand : Counting Expr) : Nat → Expr → Counting Expr
  | 0, left => return left
  | bound + 1, left => do
    match ← ofReading (Reading.accept? level.isOperator) with
    | none => return left
    | some operator =>
      let leftHeight := (← get).height
      let right ← operand
      join leftHeight operator
      chainFrom level operand bound (level.node left operator right)

def chain (level : Reading.Level) (operand : Counting Expr) : Counting Expr := do
  let first ← operand
  chainFrom level operand (← get).reader.rest.length first

def climb : List Reading.Level → Counting Expr → Counting Expr
  | [], operand => operand
  | level :: tighter, operand => chain level (climb tighter operand)

def propertiesFrom : Nat → Expr → Counting Expr
  | 0, object => return object
  | bound + 1, object => do
    match ← ofReading (Reading.acceptMark? .dot) with
    | none => return object
    | some _ =>
      match ← ofReading (Reading.accept? (· == .identifier)) with
      | none => ofReading (Reading.failHere .propertyNameExpected)
      | some name =>
        join 0 name
        propertiesFrom bound (.get object name)

/-- What follows an opening bracket. -/
def group (nested : Counting Expr) (opening : Token) : Counting Expr := do
  let inner ← nested
  match ← ofReading (Reading.acceptMark? .rightParen) with
  | none => ofReading (Reading.failHere .closingParenExpected)
  | some _ =>
    join 0 opening
    return .grouping inner

def primary (nested : Counting Expr) : Counting Expr := do
  let s ← get
  match s.reader.rest with
  | [] => ofReading (Reading.failHere .expressionExpected)
  | token :: rest =>
    match Reading.literal? token.kind with
    | some value =>
      set { s with reader := { s.reader with rest }, height := 1 }
      return .literal value
    | none =>
      match token.kind with
      | .identifier =>
        set { s with reader := { s.reader with rest }, height := 1 }
        return .reference (← ofReading Reading.freshId) token
      | .punctuator .leftParen =>
        set { s with reader := { s.reader with rest } }
        group nested token
      | _ => ofReading (Reading.failHere .expressionExpected)

def call (nested : Counting Expr) : Counting Expr := do
  let object ← primary nested
  propertiesFrom (← get).reader.rest.length object

def assignmentRule (assignment operand : Counting Expr) : Counting Expr := do
  let target ← climb Reading.levels operand
  match ← ofReading (Reading.acceptMark? .equal) with
  | none => return target
  | some equals =>
    let targetHeight := (← get).height
    let value ← assignment
    match Reading.assignTo? target value with
    | none => throw ⟨.invalidTarget, equals⟩
    | some e =>
      join targetHeight equals
      return e

def operandRule (assignment operand : Counting Expr) : Counting Expr := do
  match ← ofReading (Reading.accept? Reading.isUnaryOperator) with
  | some operator =>
    let right ← operand
    join 0 operator
    return .unary operator right
  | none => call assignment

mutual

/-- An assignment or an expression of the loosest level. Entries can be tried so many times;
with `maxNesting` tries from no open entry, the count of entries refuses one first. -/
def assignment : Nat → Counting Expr
  | 0 => entered (ofReading (Reading.failHere .nestedTooDeeply))
  | tries + 1 => entered (assignmentRule (assignment tries) (operand tries))
termination_by structural tries => tries

def operand : Nat → Counting Expr
  | 0 => entered (ofReading (Reading.failHere .nestedTooDeeply))
  | tries + 1 => entered (operandRule (assignment tries) (operand tries))
termination_by structural tries => tries

end

/-- Each call begins without open entries, whatever the calls before have left. -/
def expression : Counting Expr := do
  modify fun s => { s with depth := 0 }
  assignment maxNesting

def wholeExpression : Counting Expr := do
  let e ← expression
  if (← get).reader.rest.isEmpty then return e
  else ofReading (Reading.failHere .endExpected)

/-- The rules, whatever is left of the tries. -/
inductive IsRule : Counting Expr → Prop where
  | assignment {tries} : IsRule (assignment tries)
  | operators {tries i} (level : i < Reading.levels.length) :
      IsRule (climb (Reading.levels.drop i) (operand tries))
  | operand {tries} : IsRule (operand tries)
  | call {tries} : IsRule (call (assignment tries))
  | primary {tries} : IsRule (primary (assignment tries))

end Counting

def Call.counted : Call → Counting Expr
  | expression => Counting.expression
  | wholeExpression => Counting.wholeExpression

namespace CountingReader

def start (tokens : List Token) : CountingReader := ⟨.ofTokens tokens, 0, 0, []⟩

def attempt (step : Counting Expr) (s : CountingReader) : Except ParseError Expr × CountingReader :=
  match step.run s with
  | .ok e s' => (.ok e, s')
  | .error e s' => (.error e, s')

def behindCalls (s : CountingReader) (calls : List Call) : CountingReader :=
  calls.foldl (fun s call => (s.attempt call.counted).2) s

def answers (s : CountingReader) : List Call → List (Except ParseError Expr)
  | [] => []
  | call :: calls =>
    (s.attempt call.counted).1 :: answers (s.attempt call.counted).2 calls

end CountingReader

/-- At no place of a record are more entries open than there is room for, and none is open
behind it. -/
structure Within (room : Nat) (record : List Moment) : Prop where
  bounded : ∀ n, (record.take n).count .opened ≤ (record.take n).count .closed + room
  balanced : record.count .opened = record.count .closed

namespace Within

variable {room : Nat} {a b : List Moment}

theorem nil (room : Nat) : Within room [] := ⟨by simp, rfl⟩

theorem append (ha : Within room a) (hb : Within room b) : Within room (a ++ b) := by
  constructor
  · intro n
    have first := ha.bounded n
    have second := hb.bounded (n - a.length)
    have whole := ha.balanced
    rw [List.take_append, List.count_append, List.count_append]
    rcases Nat.le_total n a.length with inFirst | inSecond
    · rw [Nat.sub_eq_zero_of_le inFirst]
      simpa using first
    · rw [List.take_of_length_le inSecond]
      omega
  · rw [List.count_append, List.count_append, ha.balanced, hb.balanced]

/-- An entry around a record needs room for one more. -/
theorem bracket (h : Within room a) : Within (room + 1) (.opened :: a ++ [.closed]) := by
  constructor
  · intro n
    cases n with
    | zero => simp
    | succ n =>
      have inside := h.bounded n
      have whole := h.balanced
      rw [List.cons_append, List.take_succ_cons, List.take_append]
      rcases Nat.le_total n a.length with before | behind
      · rw [Nat.sub_eq_zero_of_le before]
        simp
        omega
      · have notOpened : ((([.closed] : List Moment).take (n - a.length)).count .opened) = 0 :=
          List.count_eq_zero.2 fun mem => by simpa using List.mem_of_mem_take mem
        rw [List.take_of_length_le behind]
        simp [notOpened]
        omega
  · simp [h.balanced]

end Within

end ScopedExpr
