import ScopedExpr.LexicalToken

/-!
# Lexemes

A text that does not begin with a blank begins with exactly one lexeme, which its
first character and the characters after it decide: the longest name, number or mark,
a text up to its closing quote, or a comment. What is no token is cut off as well, with
its fault, so that the text behind it can be read on.

Letters and digits are those of ASCII.
-/

namespace ScopedExpr

inductive LexFault where
  /-- No token begins with the character. -/
  | unexpected (c : Char)
  /-- A separator does not stand between two digits, or an integer is too large. -/
  | malformedNumber (text : List Char)
  /-- A text has no closing quote. -/
  | unterminatedText
deriving DecidableEq

def LexFault.message : LexFault → String
  | unexpected c => "Unexpected character: " ++ String.singleton c
  | malformedNumber text => "Invalid number literal: " ++ String.ofList text
  | unterminatedText => "Unterminated string."

/-- A lexeme with what it is and the text behind it. -/
structure Munch where
  result : Except LexFault TokenKind
  text : List Char
  rest : List Char

def isBlank (c : Char) : Bool := c == ' ' || c == '\r' || c == '\t' || c == '\n'

def isNameChar (c : Char) : Bool := c.isAlphanum || c == '_'

def isNumberChar (c : Char) : Bool := c.isDigit || c == '_'

/-- Every separator stands between two digits; `afterDigit` tells whether a digit
comes just before the text. -/
def separatorsEmbedded (afterDigit : Bool) : List Char → Bool
  | [] => true
  | c :: rest =>
    if c = '_' then
      afterDigit && rest.head?.any Char.isDigit && separatorsEmbedded false rest
    else separatorsEmbedded c.isDigit rest

def withoutSeparators (text : List Char) : List Char := text.filter (· != '_')

/-- The fraction at the front of a text, and the text behind it. A point begins a
fraction only before a digit. -/
def splitFraction : List Char → List Char × List Char
  | '.' :: d :: rest =>
    if d.isDigit then ('.' :: d :: rest.takeWhile isNumberChar, rest.dropWhile isNumberChar)
    else ([], '.' :: d :: rest)
  | rest => ([], rest)

@[simp] theorem splitFraction_append (text : List Char) :
    (splitFraction text).1 ++ (splitFraction text).2 = text := by
  unfold splitFraction
  split
  · split <;> simp
  · rfl

/-- What a number stands for: an integer without a fraction, else the nearest
binary64 number. -/
def numberKind? (whole fraction : List Char) : Option TokenKind :=
  if separatorsEmbedded false (whole ++ fraction) then
    let wholeDigits := withoutSeparators whole
    if fraction.isEmpty then .integer <$> int64? (readDigits wholeDigits)
    else
      let fractionDigits := withoutSeparators (fraction.drop 1)
      let decimal : Decimal :=
        ⟨readDigits (wholeDigits ++ fractionDigits), -(fractionDigits.length : Int)⟩
      some (.float decimal.toBinary64)
  else none

def munchNumber (first : Char) (after : List Char) : Munch :=
  let whole := first :: after.takeWhile isNumberChar
  let (fraction, rest) := splitFraction (after.dropWhile isNumberChar)
  let text := whole ++ fraction
  match numberKind? whole fraction with
  | some kind => ⟨.ok kind, text, rest⟩
  | none => ⟨.error (.malformedNumber text), text, rest⟩

/-- The longest name; a reserved word is a kind of its own. -/
def munchName (first : Char) (after : List Char) : Munch :=
  let text := first :: after.takeWhile isNameChar
  let kind := match Keyword.ofSpelling? text with
    | some word => .keyword word
    | none => .identifier
  ⟨.ok kind, text, after.dropWhile isNameChar⟩

/-- A text up to the next quote of the kind that opened it. -/
def munchText (quote : Char) (after : List Char) : Munch :=
  let content := after.takeWhile (· != quote)
  match after.dropWhile (· != quote) with
  | [] => ⟨.error .unterminatedText, quote :: after, []⟩
  | close :: rest =>
    ⟨.ok (.string (String.ofList content)), quote :: content ++ [close], rest⟩

/-- The text before the first fence of two marks and the text behind that fence. -/
def splitAtFence? : List Char → Option (List Char × List Char)
  | [] => none
  | '#' :: '#' :: rest => some ([], rest)
  | c :: rest => (splitAtFence? rest).map fun (body, behind) => (c :: body, behind)

theorem eq_append_of_splitAtFence? {text body behind : List Char}
    (h : splitAtFence? text = some (body, behind)) : text = body ++ '#' :: '#' :: behind := by
  fun_induction splitAtFence? text generalizing body with
  | case1 => cases h
  | case2 rest => cases h; rfl
  | case3 c rest _ ih =>
    obtain ⟨⟨b, r⟩, hbr, heq⟩ := Option.map_eq_some_iff.1 h
    cases heq
    rw [ih hbr]
    rfl

/-- A comment: to the end of the line, or between fences; a fence that is not closed
holds the whole rest. -/
def munchComment (after : List Char) : Munch :=
  match after with
  | '#' :: inside =>
    match splitAtFence? inside with
    | some (body, rest) =>
      ⟨.ok (.comment (String.ofList body)), '#' :: '#' :: body ++ ['#', '#'], rest⟩
    | none => ⟨.ok (.comment (String.ofList inside)), '#' :: '#' :: inside, []⟩
  | line =>
    let body := line.takeWhile (· != '\n')
    ⟨.ok (.comment (String.ofList body)), '#' :: body, line.dropWhile (· != '\n')⟩

namespace Punctuator

def ofChar? : Char → Option Punctuator
  | '(' => some leftParen
  | ')' => some rightParen
  | '\x7b' => some leftBrace
  | '\x7d' => some rightBrace
  | ',' => some comma
  | '.' => some dot
  | '-' => some minus
  | '+' => some plus
  | ';' => some semicolon
  | '/' => some slash
  | '*' => some star
  | '!' => some bang
  | '=' => some equal
  | '>' => some greater
  | '<' => some less
  | _ => none

def withEqual? : Punctuator → Option Punctuator
  | bang => some bangEqual
  | equal => some equalEqual
  | greater => some greaterEqual
  | less => some lessEqual
  | _ => none

end Punctuator

/-- The longest mark; `mark` is that of the first character. -/
def munchMark (mark : Punctuator) (first : Char) (after : List Char) : Munch :=
  match mark.withEqual?, after with
  | some longer, '=' :: rest => ⟨.ok (.punctuator longer), [first, '='], rest⟩
  | _, _ => ⟨.ok (.punctuator mark), [first], after⟩

/-- The lexeme at the front of a text that begins with `first`, which is no blank. -/
def munch (first : Char) (after : List Char) : Munch :=
  if first.isAlpha then munchName first after
  else if first.isDigit then munchNumber first after
  else if first = '"' ∨ first = '\'' then munchText first after
  else if first = '#' then munchComment after
  else
    match Punctuator.ofChar? first with
    | some mark => munchMark mark first after
    | none => ⟨.error (.unexpected first), [first], after⟩

/-- A text is split into a lexeme that begins with its first character and the text
behind it. -/
def Munch.Splits (m : Munch) (first : Char) (after : List Char) : Prop :=
  m.text ++ m.rest = first :: after ∧ m.text.head? = some first

theorem munchName_splits (first : Char) (after : List Char) :
    (munchName first after).Splits first after := by
  simp [munchName, Munch.Splits]

theorem munchNumber_splits (first : Char) (after : List Char) :
    (munchNumber first after).Splits first after := by
  unfold munchNumber
  simp only
  split <;> simp [Munch.Splits]

theorem munchText_splits (quote : Char) (after : List Char) :
    (munchText quote after).Splits quote after := by
  unfold munchText
  simp only
  split
  · simp [Munch.Splits]
  · next close rest h =>
    have whole := List.takeWhile_append_dropWhile (p := (· != quote)) (l := after)
    rw [h] at whole
    simp [Munch.Splits, whole]

theorem munchComment_splits (after : List Char) : (munchComment after).Splits '#' after := by
  unfold munchComment
  split
  · next inside =>
    split
    · next body rest h => simp [Munch.Splits, eq_append_of_splitAtFence? h]
    · simp [Munch.Splits]
  · simp [Munch.Splits]

theorem munchMark_splits (mark : Punctuator) (first : Char) (after : List Char) :
    (munchMark mark first after).Splits first after := by
  unfold munchMark
  split <;> simp [Munch.Splits]

theorem munch_splits (first : Char) (after : List Char) :
    (munch first after).Splits first after := by
  unfold munch
  split
  · exact munchName_splits first after
  split
  · exact munchNumber_splits first after
  split
  · exact munchText_splits first after
  split
  · next h => exact h ▸ munchComment_splits after
  split
  · exact munchMark_splits _ first after
  · simp [Munch.Splits]

theorem length_munch_rest_le (first : Char) (after : List Char) :
    (munch first after).rest.length ≤ after.length := by
  obtain ⟨whole, head⟩ := munch_splits first after
  have len := congrArg List.length whole
  cases text : (munch first after).text with
  | nil => simp [text] at head
  | cons c cs => simp [text] at len; omega

end ScopedExpr
