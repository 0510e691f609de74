import ScopedExpr.Proofs.EncodedText

/-!
# Scanning bytes

The cursor once more, over the bytes of a source: a place among the bytes, where one place
past the last byte stands for the end that was given. Bytes are read one at a time and all
reads are checked: a read outside of the source, or a piece of it that does not begin and end
between two characters, breaks the scanning off, which a fault of a lexeme does not.

Letters, digits and marks are told by single bytes, and also what is looked for ahead, the
ends of lines and comments. A loop goes on until a byte or the end stops it; it gets a number
of rounds, and one that needs more of them breaks off too.
-/

namespace ScopedExpr

/-- Why scanning breaks off: at a read that the source does not allow, or in a loop. -/
inductive ScanHalt where
  | byte (place : Nat)
  | slice (first last : Nat)
  | outOfRounds

structure ByteCursor where
  place : Nat
  line : Nat

abbrev Scanning := EStateM ScanHalt ByteCursor

namespace Scanning

variable (source : List Char)

def byteAt (place : Nat) : Scanning Char :=
  match (byteChars source)[place]? with
  | some c => return c
  | none => throw (.byte place)

def bytesAhead : Scanning (List Char) := do
  let place := (← get).place
  if place ≤ (byteChars source).length then return (byteChars source).drop place
  else throw (.slice place (byteChars source).length)

def slice (first last : Nat) : Scanning (List Char) :=
  if last < first then throw (.slice first last)
  else
    match splitAtByte? first source with
    | none => throw (.slice first last)
    | some (_, behind) =>
      match splitAtByte? (last - first) behind with
      | none => throw (.slice first last)
      | some (text, _) => return text

def isAtEnd : Scanning Bool := return (byteChars source).length ≤ (← get).place

def skip (count : Nat) : Scanning Unit := modify fun s => { s with place := s.place + count }

def addLines (count : Nat) : Scanning Unit := modify fun s => { s with line := s.line + count }

def countLine (c : Char) : Scanning Unit := if c = '\n' then addLines 1 else return

def advance : Scanning Char := do
  let c ← byteAt source (← get).place
  skip 1
  return c

/-- The next byte, or a null at the end of the source. -/
def peek : Scanning Char := do
  if ← isAtEnd source then return '\x00' else byteAt source (← get).place

def peekNext : Scanning Char := do
  let place := (← get).place + 1
  if (byteChars source).length ≤ place then return '\x00' else byteAt source place

def matchByte (expected : Char) : Scanning Bool := do
  if ← isAtEnd source then return false
  else if (← peek source) = expected then
    let _ ← advance source
    return true
  else return false

def skipWhile (wanted : Char → Bool) : Nat → Scanning Unit
  | 0 => throw .outOfRounds
  | rounds + 1 => do
    if wanted (← peek source) then
      let _ ← advance source
      skipWhile wanted rounds

def skipToQuote (quote : Char) : Nat → Scanning Unit
  | 0 => throw .outOfRounds
  | rounds + 1 => do
    if ← isAtEnd source then return
    else if (← peek source) = quote then return
    else
      countLine (← advance source)
      skipToQuote quote rounds

-- The lexemes get the place where they begin and are told behind their first byte.

def name (rounds : Nat) (start : ByteCursor) : Scanning TokenKind := do
  skipWhile source isNameChar rounds
  let word ← slice source start.place (← get).place
  return (Keyword.ofSpelling? word).elim .identifier .keyword

/-- Pass a point with the digits behind it. A point that has none is left. -/
def skipFraction (rounds : Nat) : Scanning Unit := do
  if (← peek source) = '.' then
    if (← peekNext source).isDigit then
      let _ ← advance source
      skipWhile source isNumberChar rounds

def number (rounds : Nat) (start : ByteCursor) : Scanning (Except LexError TokenKind) := do
  skipWhile source isNumberChar rounds
  skipFraction source rounds
  let text ← slice source start.place (← get).place
  match numberKind? (text.takeWhile (· != '.')) (text.dropWhile (· != '.')) with
  | some kind => return .ok kind
  | none => return .error ⟨.malformedNumber text, (← get).line⟩

def text (rounds : Nat) (start : ByteCursor) (quote : Char) :
    Scanning (Except LexError TokenKind) := do
  skipToQuote source quote rounds
  if ← isAtEnd source then return .error ⟨.unterminatedText, start.line⟩
  let _ ← advance source
  let content ← slice source (start.place + 1) ((← get).place - 1)
  return .ok (.string (String.ofList content))

def lineComment (start : ByteCursor) : Scanning TokenKind := do
  let ahead ← bytesAhead source
  skip (ahead.takeWhile (· != '\n')).length
  return .comment (String.ofList (← slice source (start.place + 1) (← get).place))

def blockComment : Scanning TokenKind := do
  let ahead ← bytesAhead source
  let place := (← get).place
  match splitAtFence? ahead with
  | some (body, _) =>
    addLines (newlines body)
    let content ← slice source place (place + body.length)
    skip (body.length + 2)
    return .comment (String.ofList content)
  | none =>
    addLines (newlines ahead)
    let content ← slice source place (place + ahead.length)
    skip ahead.length
    return .comment (String.ofList content)

def comment (start : ByteCursor) : Scanning TokenKind := do
  if ← matchByte source '#' then blockComment source else lineComment source start

def mark (first : Punctuator) : Scanning TokenKind := do
  match first.withEqual? with
  | none => return .punctuator first
  | some longer =>
    return .punctuator (if ← matchByte source '=' then longer else first)

/-- The whole character is reported and passed, of which only the first byte was read. -/
def unexpected (start : ByteCursor) : Scanning LexError := do
  let ahead ← slice source start.place (byteChars source).length
  let c := ahead.head?.getD '\ufffd'
  modify fun s => { s with place := start.place + c.utf8Size }
  return ⟨.unexpected c, (← get).line⟩

def lexeme (rounds : Nat) (start : ByteCursor) (first : Char) :
    Scanning (Except LexError TokenKind) := do
  if first.isAlpha then .ok <$> name source rounds start
  else if first.isDigit then number source rounds start
  else if first = '"' ∨ first = '\'' then text source rounds start first
  else if first = '#' then .ok <$> comment source start
  else
    match Punctuator.ofChar? first with
    | some first => .ok <$> mark source first
    | none => .error <$> unexpected source start

/-- One lexeme, or nothing when a blank is passed. -/
def lexeme? (rounds : Nat) (start : ByteCursor) :
    Scanning (Option (Except LexError TokenKind)) := do
  let first ← advance source
  if isBlank first then
    countLine first
    return none
  else some <$> lexeme source rounds start first

def item (start : ByteCursor) : Except LexError TokenKind → Scanning (Except LexError Token)
  | .error fault => return .error fault
  | .ok kind => do
    let text ← slice source start.place (← get).place
    return .ok ⟨kind, String.ofList text, start.line⟩

/-- Ask for an item, which goes on past blanks. Behind the end there is none. -/
def pull : Nat → Scanning (Option (Except LexError Token))
  | 0 => throw .outOfRounds
  | rounds + 1 => do
    let start ← get
    if (byteChars source).length < start.place then return none
    else if start.place = (byteChars source).length then
      skip 1
      return some (.ok ⟨.endOfText, "", start.line⟩)
    else
      match ← lexeme? source rounds start with
      | none => pull rounds
      | some told => some <$> item source start told

section Steps

variable {source before after : List Char} {c : Char} {line : Nat} {s s' : ByteCursor}

theorem run_bind_of_ok {α β : Type} {x : Scanning α} {f : α → Scanning β} {a : α}
    (h : x.run s = .ok a s') : (x >>= f).run s = (f a).run s' := by
  rw [EStateM.run_bind, h]

theorem run_countLine (c : Char) (s : ByteCursor) :
    (countLine c).run s = .ok () { s with line := s.line + newlines [c] } := by
  unfold countLine
  by_cases newline : c = '\n'
  · rw [if_pos newline, newline]
    rfl
  · rw [if_neg newline, newlines, List.count_singleton, if_neg (by simpa using newline)]
    rfl

theorem run_byteAt (h : byteChars source = before ++ c :: after) (s : ByteCursor) :
    (byteAt source before.length).run s = .ok c s := by
  have here : (byteChars source)[before.length]? = some c := by simp [h]
  rw [byteAt, here]
  rfl

theorem run_advance (h : byteChars source = before ++ c :: after) :
    (advance source).run ⟨before.length, line⟩ = .ok c ⟨before.length + 1, line⟩ := by
  refine (run_bind_of_ok rfl).trans ((run_bind_of_ok (run_byteAt h _)).trans ?_)
  rfl

theorem run_isAtEnd (h : byteChars source = before ++ after) :
    (isAtEnd source).run ⟨before.length, line⟩ = .ok after.isEmpty ⟨before.length, line⟩ := by
  have same : decide ((byteChars source).length ≤ before.length) = after.isEmpty := by
    cases after <;> simp [h]
  rw [← same]
  rfl

theorem run_peek (h : byteChars source = before ++ after) :
    (peek source).run ⟨before.length, line⟩ =
      .ok (after.head?.getD '\x00') ⟨before.length, line⟩ := by
  refine (run_bind_of_ok (run_isAtEnd h)).trans ?_
  cases after with
  | nil => rfl
  | cons c after => exact (run_bind_of_ok rfl).trans (run_byteAt h _)

theorem run_peekNext (h : byteChars source = before ++ c :: after) :
    (peekNext source).run ⟨before.length, line⟩ =
      .ok (after.head?.getD '\x00') ⟨before.length, line⟩ := by
  refine (run_bind_of_ok rfl).trans ?_
  have length : (byteChars source).length = before.length + 1 + after.length := by
    rw [h, List.length_append, List.length_cons]
    omega
  cases after with
  | nil =>
    simp only [length, List.length_nil, Nat.add_zero, Nat.le_refl, if_true]
    rfl
  | cons d after =>
    have next : byteChars source = (before ++ [c]) ++ d :: after := by simp [h]
    have inside : ¬ (byteChars source).length ≤ before.length + 1 := by
      rw [length, List.length_cons]
      omega
    have read := run_byteAt next ⟨before.length, line⟩
    rw [List.length_append, List.length_singleton] at read
    simp only [inside, if_false]
    exact read

theorem run_bytesAhead (h : byteChars source = before ++ after) :
    (bytesAhead source).run ⟨before.length, line⟩ = .ok after ⟨before.length, line⟩ := by
  refine (run_bind_of_ok rfl).trans ?_
  have inside : before.length ≤ (byteChars source).length := by simp [h]
  have ahead : (byteChars source).drop before.length = after := by simp [h]
  simp only [inside, if_true, ahead]
  rfl

theorem run_matchByte_of_eq (h : byteChars source = before ++ c :: after) :
    (matchByte source c).run ⟨before.length, line⟩ = .ok true ⟨before.length + 1, line⟩ := by
  refine (run_bind_of_ok (run_isAtEnd h)).trans ((run_bind_of_ok (run_peek h)).trans ?_)
  simp only [List.head?_cons, Option.getD_some, if_true]
  exact (run_bind_of_ok (run_advance h)).trans rfl

theorem run_matchByte_of_ne (h : byteChars source = before ++ after)
    (other : after.head? ≠ some c) :
    (matchByte source c).run ⟨before.length, line⟩ = .ok false ⟨before.length, line⟩ := by
  refine (run_bind_of_ok (run_isAtEnd h)).trans ?_
  cases after with
  | nil => rfl
  | cons d after =>
    have ne : d ≠ c := by simpa using other
    refine (run_bind_of_ok (run_peek h)).trans ?_
    simp only [List.head?_cons, Option.getD_some, ne, if_false]
    rfl

/-- A loop passes the longest front of bytes that are wanted; at the end of the source it stops
before the null. -/
theorem run_skipWhile {wanted : Char → Bool} (null : wanted '\x00' = false) {rounds : Nat}
    (h : byteChars source = before ++ after) (enough : after.length < rounds) :
    (skipWhile source wanted rounds).run ⟨before.length, line⟩ =
      .ok () ⟨before.length + (after.takeWhile wanted).length, line⟩ := by
  induction rounds generalizing before after with
  | zero => cases enough
  | succ rounds ih =>
    refine (run_bind_of_ok (run_peek h)).trans ?_
    cases after with
    | nil =>
      simp only [List.head?_nil, Option.getD_none, null]
      rfl
    | cons c after =>
      cases is : wanted c with
      | false =>
        simp only [List.head?_cons, Option.getD_some, is, List.takeWhile_cons]
        rfl
      | true =>
        have behind : byteChars source = (before ++ [c]) ++ after := by simp [h]
        have rest := ih behind (Nat.lt_of_succ_lt_succ enough)
        simp only [List.length_append, List.length_singleton] at rest
        simp only [List.head?_cons, Option.getD_some, is, if_true, List.takeWhile_cons,
          List.length_cons]
        refine (run_bind_of_ok (run_advance h)).trans (rest.trans ?_)
        rw [Nat.add_assoc, Nat.add_comm 1]

theorem run_skipToQuote {quote : Char} {rounds : Nat} (h : byteChars source = before ++ after)
    (enough : after.length < rounds) (line : Nat) :
    (skipToQuote source quote rounds).run ⟨before.length, line⟩ =
      .ok () ⟨before.length + (after.takeWhile (· != quote)).length,
        line + newlines (after.takeWhile (· != quote))⟩ := by
  induction rounds generalizing before after line with
  | zero => cases enough
  | succ rounds ih =>
    refine (run_bind_of_ok (run_isAtEnd h)).trans ?_
    cases after with
    | nil => rfl
    | cons c after =>
      refine (run_bind_of_ok (run_peek h)).trans ?_
      by_cases is : c = quote
      · simp only [List.head?_cons, Option.getD_some, is, if_true, List.takeWhile_cons,
          bne_self_eq_false]
        rfl
      · have behind : byteChars source = (before ++ [c]) ++ after := by simp [h]
        have rest := ih behind (Nat.lt_of_succ_lt_succ enough) (line + newlines [c])
        have other : (c != quote) = true := by simpa using is
        simp only [List.length_append, List.length_singleton] at rest
        simp only [List.head?_cons, Option.getD_some, is, if_false, List.takeWhile_cons, other,
          if_true, List.length_cons]
        refine (run_bind_of_ok (run_advance h)).trans ((run_bind_of_ok (run_countLine _ _)).trans
          (rest.trans ?_))
        rw [Nat.add_assoc, Nat.add_comm 1, Nat.add_assoc, ← newlines_append, List.singleton_append]

end Steps

end Scanning

end ScopedExpr
