import Mathlib.Data.Nat.Digits.Defs
import ScopedExpr.Proofs.LexemeBoundary
import ScopedExpr.Proofs.PrintedValues

/-!
# Number literals

A literal is a number of the grammar whose separators stand between digits and which,
without a point, has 63 bits. It stands for what its digits write in decimal; a number that
is no literal is a fault, behind which the text is read on. Every writing of an integer of
63 bits, with zeros in front and separators between the digits, is such a literal.
-/

namespace ScopedExpr

/-- What the digits of a word write, whatever separators stand among them. -/
def decimalValue (word : List Char) : Nat :=
  Nat.ofDigits 10 ((withoutSeparators word).reverse.map digitValue)

/-- What makes a number of the grammar a literal. -/
def IsLiteral (word : List Char) : Prop :=
  SeparatorsInside word ∧ ('.' ∉ word → decimalValue word < twoPow 63)

/-- The writings of a number: digits, zeros in front of them or not, with a separator or none
between two of them. -/
inductive DecimalWriting : Nat → List Char → Prop where
  | digit {d} (lt : d < 10) : DecimalWriting d [digitChar d]
  | further {n word d} (front : DecimalWriting n word) (lt : d < 10) :
      DecimalWriting (10 * n + d) (word ++ [digitChar d])
  | separated {n word d} (front : DecimalWriting n word) (lt : d < 10) :
      DecimalWriting (10 * n + d) (word ++ ['_', digitChar d])

theorem ofDigits_reverse (digits : List Nat) :
    Nat.ofDigits 10 digits.reverse = ofDecimalDigits digits := by
  induction digits using List.reverseRecOn with
  | nil => rfl
  | append_singleton digits d ih =>
    rw [List.reverse_append, List.reverse_singleton, List.singleton_append, Nat.ofDigits_cons, ih,
      ofDecimalDigits_append_singleton, Nat.add_comm]

theorem decimalValue_eq (word : List Char) :
    decimalValue word = readDigits (withoutSeparators word) := by
  rw [decimalValue, List.map_reverse, ofDigits_reverse, readDigits]

theorem digitChar_ne_separator {d : Nat} (lt : d < 10) : digitChar d ≠ '_' := by
  intro is
  have digit := isDigit_digitChar lt
  rw [is] at digit
  cases digit

theorem withoutSeparators_digit {d : Nat} (lt : d < 10) :
    withoutSeparators [digitChar d] = [digitChar d] := by
  simp [withoutSeparators, digitChar_ne_separator lt]

theorem decimalValue_digit {d : Nat} (lt : d < 10) : decimalValue [digitChar d] = d := by
  rw [decimalValue, withoutSeparators_digit lt, List.reverse_singleton, List.map_singleton,
    digitValue_digitChar lt, Nat.ofDigits_singleton]

theorem decimalValue_further (word : List Char) {d : Nat} (lt : d < 10) :
    decimalValue (word ++ [digitChar d]) = 10 * decimalValue word + d := by
  rw [decimalValue_eq, decimalValue_eq, withoutSeparators_append, withoutSeparators_digit lt,
    readDigits, List.map_append, List.map_singleton, ofDecimalDigits_append_singleton,
    digitValue_digitChar lt, readDigits]

theorem decimalValue_separated (word : List Char) {d : Nat} (lt : d < 10) :
    decimalValue (word ++ ['_', digitChar d]) = 10 * decimalValue word + d := by
  rw [← decimalValue_further word lt, decimalValue, decimalValue, withoutSeparators_append,
    withoutSeparators_append]
  rfl

section Characters

variable {c : Char} {word more whole fraction : List Char}

theorem isNumberChar_of_isDigit (digit : c.isDigit = true) : isNumberChar c = true := by
  simp [isNumberChar, digit]

theorem isDigit_of_isNumberChar (char : isNumberChar c = true) (other : c ≠ '_') :
    c.isDigit = true := by
  simpa [isNumberChar, other] using char

theorem exists_digitChar (digit : c.isDigit = true) : ∃ d, d < 10 ∧ digitChar d = c := by
  have bounds := Bool.and_eq_true_iff.1 digit
  have low : 48 ≤ c.toNat := UInt32.le_iff_toNat_le.1 (of_decide_eq_true bounds.1)
  have high : c.toNat ≤ 57 := UInt32.le_iff_toNat_le.1 (of_decide_eq_true bounds.2)
  refine ⟨c.toNat - 48, by omega, ?_⟩
  have place : '0'.toNat + (c.toNat - 48) = c.toNat := Nat.add_sub_of_le low
  rw [digitChar, place, Char.ofNat_toNat]

namespace IsDigits

theorem all (h : IsDigits word) : ∀ c ∈ word, isNumberChar c = true := by
  obtain ⟨c, after, rfl, digit, all⟩ := h
  exact List.forall_mem_cons.2 ⟨isNumberChar_of_isDigit digit, all⟩

theorem append (h : IsDigits word) (all : ∀ c ∈ more, isNumberChar c = true) :
    IsDigits (word ++ more) := by
  obtain ⟨c, after, rfl, digit, all'⟩ := h
  exact ⟨c, after ++ more, rfl, digit, List.forall_mem_append.2 ⟨all', all⟩⟩

theorem of_append (h : IsDigits (word ++ more)) (nonempty : word ≠ []) : IsDigits word := by
  obtain ⟨c, after, split, digit, all⟩ := h
  obtain ⟨d, front, rfl⟩ := List.exists_cons_of_ne_nil nonempty
  obtain ⟨rfl, rfl⟩ := List.cons.inj split
  exact ⟨d, front, rfl, digit, (List.forall_mem_append.1 all).1⟩

/-- The first character is a digit, so digits are left without the separators. -/
theorem digits_withoutSeparators (h : IsDigits word) : Digits (withoutSeparators word) := by
  refine ⟨?_, fun c mem => ?_⟩
  · obtain ⟨c, after, rfl, digit, -⟩ := h
    have first : (c != '_') = true := by
      rw [bne_iff_ne]
      rintro rfl
      cases digit
    rw [withoutSeparators, List.filter_cons, if_pos first]
    exact List.cons_ne_nil _ _
  · obtain ⟨mem, other⟩ := List.mem_filter.1 mem
    exact isDigit_of_isNumberChar (h.all c mem) (bne_iff_ne.1 other)

end IsDigits

theorem withoutSeparators_point (whole fraction : List Char) :
    withoutSeparators (whole ++ '.' :: fraction) =
      withoutSeparators whole ++ '.' :: withoutSeparators fraction := by
  rw [withoutSeparators_append]
  rfl

theorem withoutSeparators_idem (word : List Char) :
    withoutSeparators (withoutSeparators word) = withoutSeparators word := by
  simp [withoutSeparators]

/-- The fraction does not hang on the separators. -/
theorem decimalFraction_withoutSeparators (whole fraction : List Char) :
    decimalFraction (withoutSeparators whole) (withoutSeparators fraction) =
      decimalFraction whole fraction := by
  rw [decimalFraction, decimalFraction, ← withoutSeparators_append, withoutSeparators_idem,
    withoutSeparators_idem]

end Characters

section Literals

variable {word : List Char}

theorem IsLiteral.reads_integer (h : IsLiteral word) (noPoint : '.' ∉ word) :
    ∃ n : Int64, n.toInt = decimalValue word ∧ NumberReads word (.ok (.integer n)) := by
  have bound : decimalValue word < 9223372036854775808 := h.2 noPoint
  have value : (Int64.ofInt (decimalValue word)).toInt = decimalValue word := by
    apply Int64.toInt_ofInt_of_le <;> omega
  refine ⟨_, value, .integer h.1 noPoint ?_⟩
  rw [value, decimalValue_eq]

/-- A number with a point stands for the same fraction without its separators. -/
theorem IsLiteral.reads_float (h : IsLiteral word) (number : IsNumber word) (point : '.' ∈ word) :
    ∃ whole fraction, word = whole ++ '.' :: fraction ∧
      NumberReads word (.ok (.float (decimalFraction whole fraction).toBinary64)) ∧
      IsNumber (withoutSeparators word) ∧
      BeginsWith (withoutSeparators word)
        (.ok (.float (decimalFraction whole fraction).toBinary64)) (withoutSeparators word) := by
  obtain digits | ⟨whole, fraction, rfl, hw, hf⟩ := number
  · exact absurd point (point_notMem_of_isDigits digits)
  · have onePoint := And.intro (point_notMem_of_isDigits hw) (point_notMem_of_isDigits hf)
    have dw := hw.digits_withoutSeparators
    have df := hf.digits_withoutSeparators
    have free : '_' ∉ withoutSeparators whole ++ '.' :: withoutSeparators fraction := by
      simp [dw.notMem (c := '_') rfl, df.notMem (c := '_') rfl]
    have alone : IsNumber (withoutSeparators whole ++ '.' :: withoutSeparators fraction) :=
      .inr ⟨_, _, rfl, dw.isDigits, df.isDigits⟩
    refine ⟨whole, fraction, rfl, .float h.1 rfl onePoint, ?_⟩
    rw [withoutSeparators_point, ← decimalFraction_withoutSeparators]
    refine ⟨alone, beginsWith_number alone ?_⟩
    exact .float (separatorsInside_of_notMem free) rfl ⟨dw.notMem rfl, df.notMem rfl⟩

theorem reads_malformed (h : ¬ IsLiteral word) :
    NumberReads word (.error (.malformedNumber word)) := by
  by_cases inside : SeparatorsInside word
  · obtain ⟨noPoint, large⟩ := not_forall.1 (fun small => h ⟨inside, small⟩)
    refine .large noPoint ?_
    have most : Int64.maxValue.toInt = 9223372036854775807 := rfl
    have least : ¬ decimalValue word < 9223372036854775808 := large
    rw [← decimalValue_eq, most]
    omega
  · exact .loose inside

/-- A number is cut off at a cursor as a whole and on one line. -/
theorem next?_number {gap rest : List Char} {result : Except LexFault TokenKind}
    (blank : Blank gap) (front : LongestPrefix IsNumber (word ++ rest) word)
    (reads : NumberReads word result) (line : Nat) :
    (Cursor.reading (gap ++ (word ++ rest)) line).next? =
      some (lexedItem result word (line + newlines gap),
        Cursor.reading rest (line + newlines gap)) := by
  have begins : BeginsWith (word ++ rest) result word := .number front reads
  obtain ⟨c, after, split, notBlank⟩ := begins.cons
  have cut := begins.munch_of_append split
  rw [split, Cursor.next?_lexeme blank notBlank, cut, newlines_of_solid front.mem.solid,
    Nat.add_zero]

end Literals

section Separators

variable {word more before after : List Char} {c : Char}

/-- A separator in a longer word is its last character or stands in the shorter word. -/
theorem cases_of_concat_eq (h : word ++ [c] = before ++ '_' :: after) :
    (word = before ∧ c = '_' ∧ after = []) ∨
      ∃ inner, after = inner ++ [c] ∧ word = before ++ '_' :: inner := by
  obtain rfl | ⟨inner, last, rfl⟩ := List.eq_nil_or_concat' after
  · obtain ⟨rfl, same⟩ := List.append_inj' h rfl
    exact .inl ⟨rfl, List.head_eq_of_cons_eq same, rfl⟩
  · have regrouped : word ++ [c] = (before ++ '_' :: inner) ++ [last] := by simp [h]
    obtain ⟨rfl, same⟩ := List.append_inj' regrouped rfl
    exact .inr ⟨inner, by rw [List.head_eq_of_cons_eq same], rfl⟩

theorem head?_append_any (h : word.head?.any Char.isDigit = true) :
    (word ++ more).head?.any Char.isDigit = true := by
  cases word with
  | nil => cases h
  | cons c word => exact h

theorem separatorsInside_digit (digit : c.isDigit = true) : SeparatorsInside [c] := by
  refine separatorsInside_of_notMem fun mem => ?_
  rw [← List.mem_singleton.1 mem] at digit
  cases digit

namespace SeparatorsInside

theorem further (h : SeparatorsInside word) (digit : c.isDigit = true) :
    SeparatorsInside (word ++ [c]) := by
  intro before after split
  obtain ⟨-, rfl, -⟩ | ⟨inner, rfl, within⟩ := cases_of_concat_eq split
  · cases digit
  · obtain ⟨left, right⟩ := h before inner within
    exact ⟨left, head?_append_any right⟩

theorem separated (h : SeparatorsInside word) (last : word.getLast?.any Char.isDigit = true)
    (digit : c.isDigit = true) : SeparatorsInside (word ++ ['_', c]) := by
  intro before after split
  have regrouped : (word ++ ['_']) ++ [c] = before ++ '_' :: after := by simp [← split]
  obtain ⟨-, rfl, -⟩ | ⟨inner, rfl, within⟩ := cases_of_concat_eq regrouped
  · cases digit
  · obtain ⟨rfl, -, rfl⟩ | ⟨inner, rfl, shorter⟩ := cases_of_concat_eq within
    · exact ⟨last, digit⟩
    · obtain ⟨left, right⟩ := h before inner shorter
      exact ⟨left, head?_append_any (head?_append_any right)⟩

/-- The front of a word keeps its separators inside when it ends with a digit. -/
theorem of_append (h : SeparatorsInside (word ++ more))
    (last : word.getLast?.any Char.isDigit = true) : SeparatorsInside word := by
  intro before after split
  obtain ⟨left, right⟩ := h before (after ++ more) (by simp [split])
  refine ⟨left, ?_⟩
  cases after with
  | nil =>
    rw [split, List.getLast?_concat] at last
    cases last
  | cons c after => exact right

end SeparatorsInside

end Separators

namespace DecimalWriting

variable {n : Nat} {word : List Char}

theorem ends_with_digit (h : DecimalWriting n word) :
    word.getLast?.any Char.isDigit = true := by
  cases h with
  | digit lt => exact isDigit_digitChar lt
  | further _ lt | separated _ lt => simpa using isDigit_digitChar lt

theorem isDigits (h : DecimalWriting n word) : IsDigits word := by
  have numberChar {d : Nat} (lt : d < 10) : ∀ c ∈ [digitChar d], isNumberChar c = true :=
    List.forall_mem_singleton.2 (isNumberChar_of_isDigit (isDigit_digitChar lt))
  induction h with
  | @digit d lt => exact ⟨digitChar d, [], rfl, isDigit_digitChar lt, List.forall_mem_nil _⟩
  | further _ lt ih => exact ih.append (numberChar lt)
  | separated _ lt ih => exact ih.append (List.forall_mem_cons.2 ⟨rfl, numberChar lt⟩)

theorem separatorsInside (h : DecimalWriting n word) : SeparatorsInside word := by
  induction h with
  | digit lt => exact separatorsInside_digit (isDigit_digitChar lt)
  | further _ lt ih => exact ih.further (isDigit_digitChar lt)
  | separated front lt ih => exact ih.separated front.ends_with_digit (isDigit_digitChar lt)

theorem decimalValue_eq (h : DecimalWriting n word) : decimalValue word = n := by
  induction h with
  | digit lt => exact decimalValue_digit lt
  | further _ lt ih => rw [decimalValue_further _ lt, ih]
  | separated _ lt ih => rw [decimalValue_separated _ lt, ih]

/-- The writings are the runs of digits whose separators stand between two of them. By
induction on the length, since a separator goes with the digit behind it. -/
theorem of_isDigits (digits : IsDigits word) (inside : SeparatorsInside word) :
    DecimalWriting (decimalValue word) word := by
  induction len : word.length using Nat.strongRecOn generalizing word with
  | ind k ih =>
    obtain rfl | ⟨front, c, rfl⟩ := List.eq_nil_or_concat' word
    · obtain ⟨c, after, nothing, -⟩ := digits
      cases nothing
    have digit : c.isDigit = true := by
      refine isDigit_of_isNumberChar (digits.all c (by simp)) ?_
      rintro rfl
      cases (inside front [] rfl).2
    obtain ⟨d, lt, rfl⟩ := exists_digitChar digit
    obtain rfl | ⟨init, b, rfl⟩ := List.eq_nil_or_concat' front
    · rw [List.nil_append, decimalValue_digit lt]
      exact .digit lt
    by_cases separator : b = '_'
    · subst separator
      have shape : init ++ ['_'] ++ [digitChar d] = init ++ ['_', digitChar d] := by simp
      rw [shape] at digits inside len ⊢
      have last : init.getLast?.any Char.isDigit = true := (inside init [digitChar d] rfl).1
      have nonempty : init ≠ [] := by
        rintro rfl
        cases last
      rw [decimalValue_separated init lt]
      refine .separated (ih init.length ?_ (digits.of_append nonempty) (inside.of_append last) rfl)
        lt
      rw [← len]
      simp
    · have front : b.isDigit = true := isDigit_of_isNumberChar (digits.all b (by simp)) separator
      have last : (init ++ [b]).getLast?.any Char.isDigit = true := by simpa using front
      rw [decimalValue_further _ lt]
      refine .further (ih (init ++ [b]).length ?_ (digits.of_append (by simp))
        (inside.of_append last) rfl) lt
      rw [← len]
      simp

end DecimalWriting

theorem decimalWriting_iff {n : Nat} {word : List Char} :
    DecimalWriting n word ↔ IsDigits word ∧ SeparatorsInside word ∧ decimalValue word = n := by
  constructor
  · exact fun h => ⟨h.isDigits, h.separatorsInside, h.decimalValue_eq⟩
  · rintro ⟨digits, inside, rfl⟩
    exact .of_isDigits digits inside

/-- What is told of a number on a line: an integer with the value of its digits, with a point
the same binary64 number as without its separators, or a fault. -/
inductive LiteralItem (word : List Char) (line : Nat) : Except LexError Token → Prop where
  | integer {n : Int64} (literal : IsLiteral word) (noPoint : '.' ∉ word)
      (value : n.toInt = decimalValue word) :
      LiteralItem word line (.ok ⟨.integer n, String.ofList word, line⟩)
  | float {x whole fraction} (literal : IsLiteral word) (split : word = whole ++ '.' :: fraction)
      (value : x = (decimalFraction whole fraction).toBinary64)
      (alone : tokensOf (String.ofList (withoutSeparators word)) =
        .ok [⟨.float x, String.ofList (withoutSeparators word), 1⟩, ⟨.endOfText, "", 1⟩]) :
      LiteralItem word line (.ok ⟨.float x, String.ofList word, line⟩)
  | malformed (other : ¬ IsLiteral word) :
      LiteralItem word line (.error ⟨.malformedNumber word, line⟩)

section Scanning

variable {word : List Char} {kind : TokenKind} {item : Except LexError Token}

theorem tokensOf_number (number : IsNumber word) (begins : BeginsWith word (.ok kind) word) :
    tokensOf (String.ofList word) =
      .ok [⟨kind, String.ofList word, 1⟩, ⟨.endOfText, "", 1⟩] := by
  have scans := scans_word begins 1
  rw [newlines_of_solid number.solid] at scans
  exact tokensOf_of_scans scans

theorem LiteralItem.isToken_iff {line : Nat} (h : LiteralItem word line item) :
    (∃ kind, item = .ok ⟨kind, String.ofList word, line⟩) ↔ IsLiteral word := by
  cases h with
  | integer literal _ _ | float literal _ _ _ => exact ⟨fun _ => literal, fun _ => ⟨_, rfl⟩⟩
  | malformed other =>
    refine ⟨?_, fun literal => absurd literal other⟩
    rintro ⟨kind, is⟩
    cases is

theorem exists_literalItem (number : IsNumber word) (line : Nat) :
    ∃ result, NumberReads word result ∧ LiteralItem word line (lexedItem result word line) := by
  by_cases literal : IsLiteral word
  · by_cases point : '.' ∈ word
    · obtain ⟨whole, fraction, split, reads, isNumber, alone⟩ := literal.reads_float number point
      exact ⟨_, reads, .float literal split rfl (tokensOf_number isNumber alone)⟩
    · obtain ⟨n, value, reads⟩ := literal.reads_integer point
      exact ⟨_, reads, .integer literal point value⟩
  · exact ⟨_, reads_malformed literal, .malformed literal⟩

/-- From a digit on the longest number is cut off and the text behind it is read on. The number
is a token exactly when it is a literal, and then it stands for what its digits write. Every
writing of an integer of 63 bits is scanned as that integer. -/
theorem number_literals_read :
    (∀ gap c after line, Blank gap → c.isDigit = true → ∃ word rest item,
      c :: after = word ++ rest ∧ LongestPrefix IsNumber (c :: after) word ∧
      (Cursor.reading (gap ++ c :: after) line).next? =
        some (item, Cursor.reading rest (line + newlines gap)) ∧
      ((∃ kind, item = .ok ⟨kind, String.ofList word, line + newlines gap⟩) ↔ IsLiteral word) ∧
      LiteralItem word (line + newlines gap) item ∧
      (LexFault.malformedNumber word).message =
        "Invalid number literal: " ++ String.ofList word) ∧
    ∀ n word, DecimalWriting n word → n < twoPow 63 → ∃ i : Int64, i.toInt = n ∧
      tokensOf (String.ofList word) =
        .ok [⟨.integer i, String.ofList word, 1⟩, ⟨.endOfText, "", 1⟩] := by
  constructor
  · intro gap c after line blank digit
    obtain ⟨word, longest⟩ : ∃ word, LongestPrefix IsNumber (c :: after) word :=
      ⟨_, longest_number digit⟩
    obtain ⟨rest, split⟩ := longest.front
    obtain ⟨result, reads, item⟩ := exists_literalItem longest.mem (line + newlines gap)
    rw [← split] at longest ⊢
    exact ⟨word, rest, _, rfl, longest, next?_number blank longest reads line, item.isToken_iff,
      item, rfl⟩
  · intro n word writing small
    obtain ⟨digits, inside, value⟩ := decimalWriting_iff.1 writing
    have literal : IsLiteral word := ⟨inside, fun _ => value ▸ small⟩
    obtain ⟨i, same, reads⟩ := literal.reads_integer (point_notMem_of_isDigits digits)
    rw [value] at same
    exact ⟨i, same, tokensOf_number (.inl digits) (beginsWith_number (.inl digits) reads)⟩

/-- The separator of `1_.5` has no digit behind it, and the greatest integer may have zeros and
separators. -/
theorem number_literals_read_at_edges :
    (Cursor.reading ['\n', '1', '_', '.', '5', ';'] 1).next? =
      some (.error ⟨.malformedNumber ['1', '_', '.', '5'], 2⟩, Cursor.reading [';'] 2) ∧
    tokensOf "0_9_223372036854775807" =
      .ok [⟨.integer Int64.maxValue, "0_9_223372036854775807", 1⟩, ⟨.endOfText, "", 1⟩] := by
  constructor
  · have blank : Blank ['\n'] := List.forall_mem_singleton.2 rfl
    obtain ⟨word, rest, item, split, longest, next, -, told, -⟩ :=
      number_literals_read.1 ['\n'] '1' ['_', '.', '5', ';'] 1 blank rfl
    obtain rfl : word = ['1', '_', '.', '5'] := longest.unique (longest_number rfl)
    have whole : ['1', '_', '.', '5'] ++ [';'] = ['1', '_', '.', '5'] ++ rest := split
    obtain rfl := List.append_cancel_left whole
    have loose : ¬ IsLiteral ['1', '_', '.', '5'] := fun literal =>
      absurd ((separatorsEmbedded_iff _).2 literal.1) (by decide)
    cases told with
    | malformed _ => exact next
    | integer literal _ _ | float literal _ _ _ => exact absurd literal loose
  · have digits : IsDigits "0_9_223372036854775807".toList :=
      ⟨_, _, rfl, rfl, List.all_eq_true.1 (by decide)⟩
    have inside : SeparatorsInside "0_9_223372036854775807".toList :=
      (separatorsEmbedded_iff _).1 (by decide)
    have value : decimalValue "0_9_223372036854775807".toList = 9223372036854775807 := by
      rw [decimalValue_eq]
      decide
    obtain ⟨i, same, scanned⟩ := number_literals_read.2 9223372036854775807 _
      (decimalWriting_iff.2 ⟨digits, inside, value⟩) (by decide)
    obtain rfl : i = Int64.maxValue := Int64.toInt_inj.1 same
    exact scanned

end Scanning

end ScopedExpr
