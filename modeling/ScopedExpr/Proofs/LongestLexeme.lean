import ScopedExpr.LexemeRecognition

/-!
# Longest lexemes

Names, numbers and marks are sets of words. What is recognised as one of them is the
longest word of its set at the front of the text, whatever comes behind it.
-/

namespace ScopedExpr

/-- A word of a set at the front of a text, and the longest such word. -/
structure LongestPrefix (words : List Char → Prop) (text word : List Char) : Prop where
  front : word <+: text
  mem : words word
  longest : ∀ other, other <+: text → words other → other.length ≤ word.length

theorem LongestPrefix.unique {words : List Char → Prop} {text a b : List Char}
    (ha : LongestPrefix words text a) (hb : LongestPrefix words text b) : a = b := by
  have le := hb.longest a ha.front ha.mem
  have ge := ha.longest b hb.front hb.mem
  exact (List.prefix_of_prefix_length_le ha.front hb.front le).eq_of_length (Nat.le_antisymm le ge)

def IsName (word : List Char) : Prop :=
  ∃ c after, word = c :: after ∧ c.isAlpha = true ∧ ∀ d ∈ after, isNameChar d = true

def IsDigits (word : List Char) : Prop :=
  ∃ c after, word = c :: after ∧ c.isDigit = true ∧ ∀ d ∈ after, isNumberChar d = true

/-- Numbers: digits, with or without a point and digits behind it. -/
def IsNumber (word : List Char) : Prop :=
  IsDigits word ∨ ∃ whole fraction, word = whole ++ '.' :: fraction ∧ IsDigits whole ∧
    IsDigits fraction

def Punctuator.spelling : Punctuator → List Char
  | leftParen => ['(']
  | rightParen => [')']
  | leftBrace => ['\x7b']
  | rightBrace => ['\x7d']
  | comma => [',']
  | dot => ['.']
  | minus => ['-']
  | plus => ['+']
  | semicolon => [';']
  | slash => ['/']
  | star => ['*']
  | bang => ['!']
  | bangEqual => ['!', '=']
  | equal => ['=']
  | equalEqual => ['=', '=']
  | greater => ['>']
  | greaterEqual => ['>', '=']
  | less => ['<']
  | lessEqual => ['<', '=']

def IsMark (word : List Char) : Prop := ∃ p : Punctuator, p.spelling = word

section Runs

variable {p : Char → Bool} {a text : List Char} {c : Char} {after : List Char}

private theorem prefix_takeWhile (front : a <+: text) (all : ∀ c ∈ a, p c = true) :
    a <+: text.takeWhile p := by
  obtain ⟨behind, rfl⟩ := front
  rw [List.takeWhile_append_of_pos all]
  exact List.prefix_append a _

private theorem all_takeWhile (text : List Char) : ∀ c ∈ text.takeWhile p, p c = true :=
  List.all_eq_true.1 (List.all_takeWhile)

theorem longest_name (letter : c.isAlpha = true) :
    LongestPrefix IsName (c :: after) (c :: after.takeWhile isNameChar) := by
  refine ⟨?_, ⟨c, _, rfl, letter, all_takeWhile after⟩, ?_⟩
  · exact (List.cons_prefix_cons).2 ⟨rfl, List.takeWhile_prefix _⟩
  · rintro _ front ⟨d, more, rfl, -, all⟩
    have inside := prefix_takeWhile (List.cons_prefix_cons.1 front).2 all
    exact Nat.succ_le_succ inside.length_le

end Runs

section Numbers

variable {c : Char} {after : List Char}

/-- Without a separator or a digit at its front, a text may begin with a fraction. -/
theorem splitFraction_cases (text : List Char) :
    (∃ d more, text = '.' :: d :: more ∧ d.isDigit = true ∧
      splitFraction text =
        ('.' :: d :: more.takeWhile isNumberChar, more.dropWhile isNumberChar)) ∨
    (splitFraction text = ([], text) ∧
      ∀ d more, text = '.' :: d :: more → d.isDigit = false) := by
  unfold splitFraction
  split
  · next d more =>
    cases digit : d.isDigit with
    | true => exact .inl ⟨d, more, rfl, digit, by simp⟩
    | false =>
      refine .inr ⟨by simp, ?_⟩
      rintro _ _ ⟨⟩
      exact digit
  · next rest other =>
    refine .inr ⟨rfl, ?_⟩
    rintro d more rfl
    exact absurd rfl (other d more)

def wholePart (first : Char) (after : List Char) : List Char :=
  first :: after.takeWhile isNumberChar

def fractionPart (after : List Char) : List Char :=
  (splitFraction (after.dropWhile isNumberChar)).1

theorem munchNumber_eq (first : Char) (after : List Char) :
    munchNumber first after =
      ⟨match numberKind? (wholePart first after) (fractionPart after) with
        | some kind => .ok kind
        | none => .error (.malformedNumber (wholePart first after ++ fractionPart after)),
       wholePart first after ++ fractionPart after,
       (splitFraction (after.dropWhile isNumberChar)).2⟩ := by
  unfold munchNumber
  simp only [wholePart, fractionPart]
  split <;> simp [*]

theorem isDigits_wholePart (digit : c.isDigit = true) : IsDigits (wholePart c after) :=
  ⟨c, _, rfl, digit, all_takeWhile after⟩

theorem point_notMem_of_isDigits {word : List Char} (h : IsDigits word) : '.' ∉ word := by
  obtain ⟨c, after, rfl, digit, all⟩ := h
  intro mem
  rcases List.mem_cons.1 mem with rfl | mem
  · cases digit
  · cases all _ mem

theorem fractionPart_cases (after : List Char) :
    fractionPart after = [] ∨ ∃ digits, fractionPart after = '.' :: digits ∧ IsDigits digits := by
  obtain ⟨d, more, -, digit, split⟩ | ⟨split, -⟩ :=
    splitFraction_cases (after.dropWhile isNumberChar)
  · exact .inr ⟨_, by rw [fractionPart, split], d, _, rfl, digit, all_takeWhile more⟩
  · exact .inl (by rw [fractionPart, split])

theorem isNumber_parts (digit : c.isDigit = true) :
    IsNumber (wholePart c after ++ fractionPart after) := by
  obtain none | ⟨digits, some, isDigits⟩ := fractionPart_cases after
  · rw [none, List.append_nil]
    exact .inl (isDigits_wholePart digit)
  · rw [some]
    exact .inr ⟨_, _, rfl, isDigits_wholePart digit, isDigits⟩

theorem IsNumber.cons {word : List Char} (h : IsNumber word) :
    ∃ d more, word = d :: more ∧ d.isDigit = true := by
  obtain ⟨d, more, rfl, digit, -⟩ | ⟨_, f, rfl, ⟨d, more, rfl, digit, -⟩, -⟩ := h
  · exact ⟨d, more, rfl, digit⟩
  · exact ⟨d, more ++ '.' :: f, rfl, digit⟩

/-- Digits in front of a point that digits follow are the whole part, and those behind
the point begin the fraction. -/
private theorem fraction_of_point {t f behind : List Char} (all : ∀ d ∈ t, isNumberChar d = true)
    (digits : IsDigits f) (split : after = t ++ '.' :: f ++ behind) :
    after.takeWhile isNumberChar = t ∧ '.' :: f <+: fractionPart after := by
  obtain ⟨d, more, rfl, digit, moreAll⟩ := digits
  have stop : ¬ isNumberChar '.' = true := by decide
  have shape : after = t ++ '.' :: d :: (more ++ behind) := by simp [split]
  refine ⟨?_, ?_⟩
  · rw [shape, List.takeWhile_append_of_pos all, List.takeWhile_cons_of_neg stop, List.append_nil]
  · rw [fractionPart, shape, List.dropWhile_append_of_pos all, List.dropWhile_cons_of_neg stop]
    have inside : more <+: (more ++ behind).takeWhile isNumberChar :=
      prefix_takeWhile (List.prefix_append more behind) moreAll
    simpa [splitFraction, digit] using inside

theorem longest_number (digit : c.isDigit = true) :
    LongestPrefix IsNumber (c :: after) (wholePart c after ++ fractionPart after) := by
  refine ⟨?_, isNumber_parts digit, ?_⟩
  · refine ⟨(splitFraction (after.dropWhile isNumberChar)).2, ?_⟩
    simp [wholePart, fractionPart]
  · rintro _ front (⟨d, more, rfl, -, all⟩ | ⟨_, f, rfl, ⟨d, more, rfl, -, all⟩, digits⟩)
    · have inside := prefix_takeWhile (List.cons_prefix_cons.1 front).2 all
      have le := inside.length_le
      simp only [wholePart, List.length_append, List.length_cons]
      omega
    · obtain ⟨behind, split⟩ := (List.cons_prefix_cons.1 front).2
      obtain ⟨whole, fraction⟩ := fraction_of_point all digits split.symm
      have le := fraction.length_le
      simp only [wholePart, whole, List.length_append, List.length_cons] at le ⊢
      omega

end Numbers

namespace Punctuator

variable {c : Char} {mark longer : Punctuator}

theorem spelling_of_ofChar? (h : ofChar? c = some mark) : mark.spelling = [c] := by
  unfold ofChar? at h
  split at h <;> cases h <;> rfl

theorem spelling_of_withEqual? (first : ofChar? c = some mark)
    (h : mark.withEqual? = some longer) : longer.spelling = [c, '='] := by
  have short := spelling_of_ofChar? first
  cases mark <;> cases h <;> cases short <;> rfl

/-- A mark has one character, or it is the longer form of a mark of one character. -/
theorem spelling_cases (p : Punctuator) :
    ∃ c, (p.spelling = [c] ∧ ofChar? c = some p) ∨
      ∃ mark, p.spelling = [c, '='] ∧ ofChar? c = some mark ∧ mark.withEqual? = some p := by
  cases p <;> first
    | exact ⟨_, .inl ⟨rfl, rfl⟩⟩
    | exact ⟨_, .inr ⟨_, rfl, rfl, rfl⟩⟩

theorem spelling_ne_nil (p : Punctuator) : p.spelling ≠ [] := by
  obtain ⟨c, ⟨short, -⟩ | ⟨_, long, -⟩⟩ := p.spelling_cases
  · simp [short]
  · simp [long]

theorem spelling_inj {p q : Punctuator} (h : p.spelling = q.spelling) : p = q := by
  cases p <;> cases q <;> first
    | rfl
    | cases h

theorem head?_spelling_ne (h : ofChar? c = none) (p : Punctuator) : p.spelling.head? ≠ some c := by
  intro first
  obtain ⟨d, ⟨short, is⟩ | ⟨_, long, is, -⟩⟩ := p.spelling_cases
  · rw [short] at first
    cases first
    cases h.symm.trans is
  · rw [long] at first
    cases first
    cases h.symm.trans is

end Punctuator

/-- The mark that is recognised is the longest one. -/
theorem longest_mark {c : Char} {mark : Punctuator} (behind : List Char)
    (h : Punctuator.ofChar? c = some mark) :
    ∃ p : Punctuator, (munchMark mark c behind).result = .ok (.punctuator p) ∧
      (munchMark mark c behind).text = p.spelling ∧
      LongestPrefix IsMark (c :: behind) p.spelling := by
  unfold munchMark
  split
  · next longer rest equal =>
    have spelled := Punctuator.spelling_of_withEqual? h equal
    refine ⟨longer, rfl, spelled.symm, ⟨rest, by simp [spelled]⟩, ⟨longer, rfl⟩, ?_⟩
    rintro _ - ⟨q, rfl⟩
    obtain ⟨d, ⟨short, -⟩ | ⟨_, long, -⟩⟩ := q.spelling_cases
    · simp [short, spelled]
    · simp [long, spelled]
  · next noLonger =>
    have spelled := Punctuator.spelling_of_ofChar? h
    refine ⟨mark, rfl, spelled.symm, by simp [spelled], ⟨mark, rfl⟩, ?_⟩
    rintro _ front ⟨q, rfl⟩
    obtain ⟨d, ⟨short, -⟩ | ⟨m, long, is, equal⟩⟩ := q.spelling_cases
    · simp [short, spelled]
    · rw [long] at front
      obtain ⟨rfl, more⟩ := List.cons_prefix_cons.1 front
      obtain ⟨rest, rfl⟩ := more
      cases h.symm.trans is
      exact absurd rfl (noLonger q rest equal)

end ScopedExpr
