import ScopedExpr.Proofs.NumberReading

/-!
# The lexical grammar

The item at the front of a text, given by what the text looks like: the longest name,
number or mark, a text between quotes, a comment, or a character that begins nothing.
What is cut off the front of a text is that item and no other.
-/

namespace ScopedExpr

/-- What a name is: a reserved word, or else an identifier. -/
inductive NameReads (word : List Char) : TokenKind → Prop where
  | keyword {k : Keyword} (spelled : k.spelling.toList = word) : NameReads word (.keyword k)
  | identifier (free : ∀ k : Keyword, k.spelling.toList ≠ word) : NameReads word .identifier

/-- The characters that begin an item which is no fault. -/
def BeginsLexeme (c : Char) : Prop :=
  c.isAlpha = true ∨ c.isDigit = true ∨ c = '"' ∨ c = '\'' ∨ c = '#' ∨
    ∃ p : Punctuator, p.spelling.head? = some c

/-- The item at the front of a text, and its lexeme. -/
inductive BeginsWith (text : List Char) : Except LexFault TokenKind → List Char → Prop where
  | name {word kind} (front : LongestPrefix IsName text word) (reads : NameReads word kind) :
      BeginsWith text (.ok kind) word
  | number {word result} (front : LongestPrefix IsNumber text word)
      (reads : NumberReads word result) : BeginsWith text result word
  | mark {p : Punctuator} (front : LongestPrefix IsMark text p.spelling) :
      BeginsWith text (.ok (.punctuator p)) p.spelling
  /-- A text between quotes of the same kind, as far as the next one. -/
  | quoted {q content rest} (quote : q = '"' ∨ q = '\'')
      (split : text = q :: content ++ q :: rest) (free : q ∉ content) :
      BeginsWith text (.ok (.string (String.ofList content))) (q :: content ++ [q])
  | unterminated {q content} (quote : q = '"' ∨ q = '\'') (split : text = q :: content)
      (free : q ∉ content) : BeginsWith text (.error .unterminatedText) text
  /-- A comment up to the end of its line, which it leaves. -/
  | line {body rest} (split : text = '#' :: body ++ rest) (single : body.head? ≠ some '#')
      (free : '\n' ∉ body) (stop : rest = [] ∨ rest.head? = some '\n') :
      BeginsWith text (.ok (.comment (String.ofList body))) ('#' :: body)
  /-- A comment between fences, as far as the first one. -/
  | fenced {body rest} (split : text = '#' :: '#' :: body ++ '#' :: '#' :: rest)
      (first : ∀ before behind, body ++ '#' :: '#' :: rest = before ++ '#' :: '#' :: behind →
        body.length ≤ before.length) :
      BeginsWith text (.ok (.comment (String.ofList body))) ('#' :: '#' :: body ++ ['#', '#'])
  | unfenced {body} (split : text = '#' :: '#' :: body)
      (free : ∀ before behind, body ≠ before ++ '#' :: '#' :: behind) :
      BeginsWith text (.ok (.comment (String.ofList body))) text
  | strange {c rest} (split : text = c :: rest) (nothing : ¬ BeginsLexeme c)
      (notBlank : isBlank c = false) : BeginsWith text (.error (.unexpected c)) [c]

theorem Keyword.ofSpelling?_spelling (k : Keyword) :
    Keyword.ofSpelling? k.spelling.toList = some k := by
  cases k <;> decide

theorem nameReads_iff {word : List Char} {kind : TokenKind} :
    NameReads word kind ↔
      kind = match Keyword.ofSpelling? word with
        | some k => .keyword k
        | none => .identifier := by
  constructor
  · rintro (⟨⟨⟩⟩ | free)
    · rw [Keyword.ofSpelling?_spelling]
    · cases found : Keyword.ofSpelling? word with
      | none => rfl
      | some k => exact absurd (Keyword.spelling_of_ofSpelling? found) (free k)
  · rintro rfl
    cases found : Keyword.ofSpelling? word with
    | some k => exact .keyword (Keyword.spelling_of_ofSpelling? found)
    | none =>
      refine .identifier fun k spelled => ?_
      rw [← spelled, Keyword.ofSpelling?_spelling] at found
      cases found

section Runs

variable {q : Char} {body rest : List Char}

private theorem notMem_takeWhile_ne (text : List Char) : q ∉ text.takeWhile (· != q) := by
  intro mem
  simpa using List.all_eq_true.1 List.all_takeWhile q mem

private theorem dropWhile_ne_stop (text : List Char) :
    text.dropWhile (· != q) = [] ∨ (text.dropWhile (· != q)).head? = some q := by
  have stop := List.head?_dropWhile_not (· != q) text
  cases left : text.dropWhile (· != q) with
  | nil => exact .inl rfl
  | cons c rest =>
    rw [left] at stop
    exact .inr (congrArg some (by simpa using stop))

private theorem takeWhile_ne_append (free : q ∉ body) (stop : rest = [] ∨ rest.head? = some q) :
    (body ++ rest).takeWhile (· != q) = body ∧ (body ++ rest).dropWhile (· != q) = rest := by
  have all : ∀ c ∈ body, (c != q) = true := by
    intro c mem
    have ne : c ≠ q := by
      rintro rfl
      exact free mem
    simpa using ne
  rw [List.takeWhile_append_of_pos all, List.dropWhile_append_of_pos all]
  rcases stop with rfl | head
  · simp
  · obtain ⟨more, rfl⟩ := List.head?_eq_some_iff.1 head
    simp

end Runs

section Fences

variable {text before behind body rest : List Char}

/-- A fence is found, and none comes before the one that is found. -/
theorem splitAtFence?_of_fence (split : text = before ++ '#' :: '#' :: behind) :
    ∃ body rest, splitAtFence? text = some (body, rest) ∧ body.length ≤ before.length := by
  induction before generalizing text with
  | nil => exact ⟨[], behind, by rw [split]; rfl, Nat.le_refl _⟩
  | cons c before ih =>
    obtain ⟨body, rest, found, le⟩ := ih rfl
    rw [split, List.cons_append]
    unfold splitAtFence?
    split
    · next eq => cases eq
    · exact ⟨_, _, rfl, Nat.zero_le _⟩
    · next eq =>
      cases eq
      exact ⟨c :: body, rest, by rw [found]; rfl, Nat.succ_le_succ le⟩

theorem splitAtFence?_eq_some_iff :
    splitAtFence? text = some (body, rest) ↔
      text = body ++ '#' :: '#' :: rest ∧
        ∀ before behind, text = before ++ '#' :: '#' :: behind → body.length ≤ before.length := by
  constructor
  · intro found
    refine ⟨eq_append_of_splitAtFence? found, fun before behind split => ?_⟩
    obtain ⟨body', rest', found', le⟩ := splitAtFence?_of_fence split
    cases found.symm.trans found'
    exact le
  · rintro ⟨split, first⟩
    obtain ⟨body', rest', found, le⟩ := splitAtFence?_of_fence split
    have split' := eq_append_of_splitAtFence? found
    have same := Nat.le_antisymm le (first body' rest' split')
    obtain ⟨rfl, eq⟩ := List.append_inj (split'.symm.trans split) same
    cases eq
    exact found

theorem splitAtFence?_eq_none_iff :
    splitAtFence? text = none ↔ ∀ before behind, text ≠ before ++ '#' :: '#' :: behind := by
  constructor
  · intro none before behind split
    obtain ⟨_, _, found, -⟩ := splitAtFence?_of_fence split
    cases none.symm.trans found
  · intro free
    cases found : splitAtFence? text with
    | none => rfl
    | some parts => exact absurd (eq_append_of_splitAtFence? found) (free _ _)

end Fences

section Enclosed

variable {q : Char} {content body inside rest : List Char}

theorem munchText_of_quote (free : q ∉ content) :
    munchText q (content ++ q :: rest) =
      ⟨.ok (.string (String.ofList content)), q :: content ++ [q], rest⟩ := by
  have stop : q :: rest = [] ∨ (q :: rest).head? = some q := .inr rfl
  obtain ⟨run, behind⟩ := takeWhile_ne_append free stop
  simp only [munchText, run, behind]

theorem munchText_of_no_quote (free : q ∉ content) :
    munchText q content = ⟨.error .unterminatedText, q :: content, []⟩ := by
  have behind := (takeWhile_ne_append free (.inl rfl)).2
  rw [List.append_nil] at behind
  simp only [munchText, behind]

theorem munchComment_of_fence (h : splitAtFence? inside = some (body, rest)) :
    munchComment ('#' :: inside) =
      ⟨.ok (.comment (String.ofList body)), '#' :: '#' :: body ++ ['#', '#'], rest⟩ := by
  simp only [munchComment, h]

theorem munchComment_of_no_fence (h : splitAtFence? inside = none) :
    munchComment ('#' :: inside) =
      ⟨.ok (.comment (String.ofList inside)), '#' :: '#' :: inside, []⟩ := by
  simp only [munchComment, h]

theorem munchComment_of_line (single : body.head? ≠ some '#') (free : '\n' ∉ body)
    (stop : rest = [] ∨ rest.head? = some '\n') :
    munchComment (body ++ rest) = ⟨.ok (.comment (String.ofList body)), '#' :: body, rest⟩ := by
  obtain ⟨run, behind⟩ := takeWhile_ne_append free stop
  have noFence : (body ++ rest).head? ≠ some '#' := by
    cases body with
    | nil =>
      rcases stop with rfl | head
      · simp
      · simp [head]
    | cons c body => exact single
  unfold munchComment
  split
  · next inside eq =>
    rw [eq] at noFence
    exact absurd rfl noFence
  · simp only [run, behind]

end Enclosed

section FirstCharacter

variable {c : Char} {after : List Char}

theorem munch_of_letter (h : c.isAlpha = true) : munch c after = munchName c after := by
  rw [munch, if_pos h]

theorem isAlpha_of_isDigit (h : c.isDigit = true) : c.isAlpha = false := by
  have digit := Bool.and_eq_true_iff.1 h
  have high : c.toNat ≤ 57 := UInt32.le_iff_toNat_le.1 (of_decide_eq_true digit.2)
  rw [← Bool.not_eq_true]
  intro letter
  rcases Bool.or_eq_true_iff.1 letter with upper | lower
  · have low : 65 ≤ c.toNat := UInt32.le_iff_toNat_le.1 (of_decide_eq_true upper).1
    omega
  · have low : 97 ≤ c.toNat :=
      UInt32.le_iff_toNat_le.1 (of_decide_eq_true (Bool.and_eq_true_iff.1 lower).1)
    omega

theorem munch_of_digit (h : c.isDigit = true) : munch c after = munchNumber c after := by
  have notLetter : ¬ c.isAlpha = true := by simp [isAlpha_of_isDigit h]
  rw [munch, if_neg notLetter, if_pos h]

theorem munch_of_quote (h : c = '"' ∨ c = '\'') : munch c after = munchText c after := by
  rcases h with rfl | rfl <;> rfl

theorem munch_of_hash : munch '#' after = munchComment after := rfl

theorem munch_of_mark {mark : Punctuator} (h : Punctuator.ofChar? c = some mark) :
    munch c after = munchMark mark c after := by
  unfold Punctuator.ofChar? at h
  split at h <;> cases h <;> rfl

theorem munch_of_nothing (h : ¬ BeginsLexeme c) :
    munch c after = ⟨.error (.unexpected c), [c], after⟩ := by
  simp only [BeginsLexeme, not_or] at h
  obtain ⟨notLetter, notDigit, notDouble, notSingle, notHash, noMark⟩ := h
  have noQuote : ¬ (c = '"' ∨ c = '\'') := not_or.2 ⟨notDouble, notSingle⟩
  rw [munch, if_neg notLetter, if_neg notDigit, if_neg noQuote, if_neg notHash]
  cases mark : Punctuator.ofChar? c with
  | none => rfl
  | some p => exact absurd ⟨p, by rw [Punctuator.spelling_of_ofChar? mark]; rfl⟩ noMark

theorem ofChar?_of_head?_spelling {p : Punctuator} (h : p.spelling.head? = some c) :
    ∃ mark, Punctuator.ofChar? c = some mark := by
  cases is : Punctuator.ofChar? c with
  | none => exact absurd h (Punctuator.head?_spelling_ne is p)
  | some mark => exact ⟨mark, rfl⟩

end FirstCharacter

namespace BeginsWith

variable {c : Char} {after text word : List Char} {result : Except LexFault TokenKind}

theorem munchName (letter : c.isAlpha = true) :
    BeginsWith (c :: after) (ScopedExpr.munchName c after).result
      (ScopedExpr.munchName c after).text :=
  .name (longest_name letter) (nameReads_iff.2 rfl)

theorem munchNumber (digit : c.isDigit = true) :
    BeginsWith (c :: after) (ScopedExpr.munchNumber c after).result
      (ScopedExpr.munchNumber c after).text := by
  refine .number ?_ (numberReads_munchNumber digit)
  rw [munchNumber_eq]
  exact longest_number digit

theorem munchText (quote : c = '"' ∨ c = '\'') :
    BeginsWith (c :: after) (ScopedExpr.munchText c after).result
      (ScopedExpr.munchText c after).text := by
  have whole := List.takeWhile_append_dropWhile (p := (· != c)) (l := after)
  unfold ScopedExpr.munchText
  rcases dropWhile_ne_stop (q := c) after with stop | stop
  · simp only [stop]
    rw [stop, List.append_nil] at whole
    refine .unterminated quote rfl ?_
    rw [← whole]
    exact notMem_takeWhile_ne after
  · obtain ⟨rest, stop⟩ := List.head?_eq_some_iff.1 stop
    simp only [stop]
    rw [stop] at whole
    have split : c :: after = c :: after.takeWhile (· != c) ++ c :: rest := by
      rw [List.cons_append, whole]
    exact .quoted quote split (notMem_takeWhile_ne after)

theorem munchComment :
    BeginsWith ('#' :: after) (ScopedExpr.munchComment after).result
      (ScopedExpr.munchComment after).text := by
  unfold ScopedExpr.munchComment
  split
  · next inside =>
    cases fence : splitAtFence? inside with
    | some parts =>
      obtain ⟨split, first⟩ := splitAtFence?_eq_some_iff.1 fence
      refine .fenced (by rw [split]; rfl) ?_
      rwa [split] at first
    | none => exact .unfenced rfl (splitAtFence?_eq_none_iff.1 fence)
  · next noFence =>
    have whole := List.takeWhile_append_dropWhile (p := (· != '\n')) (l := after)
    refine .line (by rw [List.cons_append, whole]) ?_ (notMem_takeWhile_ne after)
      (dropWhile_ne_stop after)
    intro head
    obtain ⟨more, eq⟩ := List.head?_eq_some_iff.1 head
    rw [eq] at whole
    exact noFence _ whole.symm

theorem munchMark {mark : Punctuator} (h : Punctuator.ofChar? c = some mark) :
    BeginsWith (c :: after) (ScopedExpr.munchMark mark c after).result
      (ScopedExpr.munchMark mark c after).text := by
  obtain ⟨p, result, spelled, longest⟩ := longest_mark after h
  rw [result, spelled]
  exact .mark longest

/-- The grammar knows the item that is cut off. -/
theorem munch (notBlank : isBlank c = false) :
    BeginsWith (c :: after) (ScopedExpr.munch c after).result (ScopedExpr.munch c after).text := by
  by_cases begins : BeginsLexeme c
  · rcases begins with letter | digit | rfl | rfl | rfl | ⟨p, head⟩
    · rw [munch_of_letter letter]
      exact munchName letter
    · rw [munch_of_digit digit]
      exact munchNumber digit
    · exact munchText (.inl rfl)
    · exact munchText (.inr rfl)
    · exact munchComment
    · obtain ⟨mark, is⟩ := ofChar?_of_head?_spelling head
      rw [munch_of_mark is]
      exact munchMark is
  · rw [munch_of_nothing begins]
    exact .strange rfl begins notBlank

theorem munch_name {kind : TokenKind} (front : LongestPrefix IsName (c :: after) word)
    (reads : NameReads word kind) :
    (ScopedExpr.munch c after).result = .ok kind ∧ (ScopedExpr.munch c after).text = word := by
  obtain ⟨d, more, rfl, letter, -⟩ := front.mem
  obtain ⟨rfl, -⟩ := List.cons_prefix_cons.1 front.front
  have same := (longest_name letter).unique front
  rw [munch_of_letter letter]
  refine ⟨?_, same⟩
  rw [nameReads_iff.1 reads, ← same]
  rfl

theorem munch_number (front : LongestPrefix IsNumber (c :: after) word)
    (reads : NumberReads word result) :
    (ScopedExpr.munch c after).result = result ∧ (ScopedExpr.munch c after).text = word := by
  obtain ⟨d, more, rfl, digit⟩ := front.mem.cons
  obtain ⟨rfl, -⟩ := List.cons_prefix_cons.1 front.front
  have same : (ScopedExpr.munchNumber d after).text = d :: more := by
    rw [munchNumber_eq]
    exact (longest_number digit).unique front
  rw [munch_of_digit digit]
  refine ⟨?_, same⟩
  rw [← same] at reads
  exact (numberReads_munchNumber digit).unique reads

theorem munch_mark {p : Punctuator} (front : LongestPrefix IsMark (c :: after) p.spelling) :
    (ScopedExpr.munch c after).result = .ok (.punctuator p) ∧
      (ScopedExpr.munch c after).text = p.spelling := by
  obtain ⟨d, more, begins⟩ := List.exists_cons_of_ne_nil p.spelling_ne_nil
  have head : p.spelling.head? = some c := by
    have first := front.front
    rw [begins] at first
    rw [begins, List.head?_cons, (List.cons_prefix_cons.1 first).1]
  obtain ⟨mark, is⟩ := ofChar?_of_head?_spelling head
  obtain ⟨p', result, spelled, longest⟩ := longest_mark after is
  obtain rfl := Punctuator.spelling_inj (longest.unique front)
  rw [munch_of_mark is]
  exact ⟨result, spelled⟩

/-- The grammar knows no other item. -/
theorem munch_eq (h : BeginsWith (c :: after) result word) :
    (ScopedExpr.munch c after).result = result ∧ (ScopedExpr.munch c after).text = word := by
  generalize whole : c :: after = text at h
  cases h with
  | name front reads => exact munch_name (whole ▸ front) reads
  | number front reads => exact munch_number (whole ▸ front) reads
  | mark front => exact munch_mark (whole ▸ front)
  | @quoted q content rest quote split free =>
    obtain ⟨rfl, rfl⟩ : c = q ∧ after = content ++ q :: rest := List.cons.inj (whole.trans split)
    rw [munch_of_quote quote, munchText_of_quote free]
    exact ⟨rfl, rfl⟩
  | @unterminated q content quote split free =>
    obtain ⟨rfl, rfl⟩ : c = q ∧ after = content := List.cons.inj (whole.trans split)
    rw [munch_of_quote quote, munchText_of_no_quote free]
    exact ⟨rfl, whole⟩
  | @line body rest split single free stop =>
    obtain ⟨rfl, rfl⟩ : c = '#' ∧ after = body ++ rest := List.cons.inj (whole.trans split)
    rw [munch_of_hash, munchComment_of_line single free stop]
    exact ⟨rfl, rfl⟩
  | @fenced body rest split first =>
    obtain ⟨rfl, rfl⟩ : c = '#' ∧ after = '#' :: (body ++ '#' :: '#' :: rest) :=
      List.cons.inj (whole.trans split)
    rw [munch_of_hash, munchComment_of_fence (splitAtFence?_eq_some_iff.2 ⟨rfl, first⟩)]
    exact ⟨rfl, rfl⟩
  | @unfenced body split free =>
    obtain ⟨rfl, rfl⟩ : c = '#' ∧ after = '#' :: body := List.cons.inj (whole.trans split)
    rw [munch_of_hash, munchComment_of_no_fence (splitAtFence?_eq_none_iff.2 free)]
    exact ⟨rfl, whole⟩
  | @strange d rest split nothing _ =>
    obtain ⟨rfl, rfl⟩ : c = d ∧ after = rest := List.cons.inj (whole.trans split)
    rw [munch_of_nothing nothing]
    exact ⟨rfl, rfl⟩

end BeginsWith

-- A point is left to the next item where no digit follows, and the first fence closes.
example : (munch '1' ['.', 'a', 'b', 's']).text = ['1'] := by decide

example : (munch '#' ['#', '#', '#', 'x']).text = ['#', '#', '#', '#'] := by decide

end ScopedExpr
