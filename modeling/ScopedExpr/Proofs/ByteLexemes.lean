import ScopedExpr.Proofs.ByteScanning
import ScopedExpr.Proofs.LexemeBoundary

/-!
# Lexemes from bytes

Behind its first byte, a lexeme is told from bytes as it is cut off the text: the same kind
or fault, and the place between the characters where it ends. No read is refused on the way,
and one round more than there are bytes left is enough for every loop.
-/

namespace ScopedExpr

def ByteCursor.behind (passed : List Char) (line : Nat) : ByteCursor :=
  ⟨(byteChars passed).length, line⟩

open ByteCursor (behind)

/-- The next byte of what is left of a source, or a null. -/
def peeked (rest : List Char) : Char := (byteChars rest).head?.getD '\x00'

section Places

variable {source passed rest after : List Char} {c : Char} {line : Nat} {p : Char → Bool}

theorem byteChars_split (h : source = passed ++ rest) :
    byteChars source = byteChars passed ++ byteChars rest :=
  h ▸ byteChars_append passed rest

theorem length_byteChars_rest_le (h : source = passed ++ rest) :
    (byteChars rest).length ≤ (byteChars source).length := by
  rw [byteChars_split h, List.length_append]
  exact Nat.le_add_left _ _

theorem peeked_any (h : Bytewise p) (null : p '\x00' = false) (rest : List Char) :
    p (peeked rest) = rest.head?.any p := by
  cases rest with
  | nil => exact null
  | cons c rest =>
    obtain ⟨d, ds, first⟩ := List.exists_cons_of_ne_nil (byteChars_singleton_ne_nil c)
    have head : peeked (c :: rest) = d := by
      rw [peeked, byteChars_cons, first]
      rfl
    rw [head]
    exact eq_of_mem_byteChars h (first ▸ List.mem_cons_self)

theorem peeked_cons_of_ascii {q : Char} (ascii : q.val ≤ 127) (rest : List Char) :
    peeked (q :: rest) = q := by
  rw [peeked, byteChars_cons_of_ascii ascii]
  rfl

theorem exists_of_head?_byteChars {q : Char} (ascii : q.val ≤ 127)
    (h : (byteChars rest).head? = some q) : ∃ behind, rest = q :: behind := by
  cases rest with
  | nil => cases h
  | cons c behind =>
    obtain ⟨d, ds, first⟩ := List.exists_cons_of_ne_nil (byteChars_singleton_ne_nil c)
    rw [byteChars_cons, first] at h
    obtain rfl : d = q := Option.some.inj h
    have same := eq_of_mem_byteChars (Bytewise.beq ascii) (first ▸ List.mem_cons_self)
    rw [beq_self_eq_true] at same
    exact ⟨behind, by rw [eq_of_beq same.symm]⟩

theorem exists_of_peeked {q : Char} (ascii : q.val ≤ 127) (null : q ≠ '\x00')
    (h : peeked rest = q) : ∃ behind, rest = q :: behind := by
  refine exists_of_head?_byteChars ascii ?_
  rw [peeked] at h
  cases first : (byteChars rest).head? with
  | none => exact absurd (h.symm.trans (by rw [first]; rfl)) null
  | some d => rw [← h, first, Option.getD_some]

theorem behind_append (passed text : List Char) (line : Nat) :
    ⟨(byteChars passed).length + (byteChars text).length, line⟩ = behind (passed ++ text) line := by
  rw [behind, byteChars_append, List.length_append]

theorem behind_ascii (ascii : c.val ≤ 127) (passed : List Char) (line : Nat) :
    ⟨(byteChars passed).length + 1, line⟩ = behind (passed ++ [c]) line := by
  rw [behind, length_byteChars_concat ascii]

end Places

namespace Scanning

variable {source passed rest after : List Char} {c : Char} {line rounds : Nat} {s : ByteCursor}

theorem run_peek_behind (h : source = passed ++ rest) :
    (peek source).run (behind passed line) = .ok (peeked rest) (behind passed line) :=
  run_peek (byteChars_split h)

theorem run_advance_behind (h : source = passed ++ c :: rest) (ascii : c.val ≤ 127) :
    (advance source).run (behind passed line) = .ok c (behind (passed ++ [c]) line) := by
  have bytes := byteChars_split h
  rw [byteChars_cons_of_ascii ascii] at bytes
  rw [← behind_ascii ascii]
  exact run_advance bytes

theorem run_peekNext_behind (h : source = passed ++ c :: rest) (ascii : c.val ≤ 127) :
    (peekNext source).run (behind passed line) = .ok (peeked rest) (behind passed line) := by
  have bytes := byteChars_split h
  rw [byteChars_cons_of_ascii ascii] at bytes
  exact run_peekNext bytes

theorem run_skipWhile_behind {wanted : Char → Bool} (bytewise : Bytewise wanted)
    (null : wanted '\x00' = false) (h : source = passed ++ rest)
    (enough : (byteChars rest).length < rounds) (line : Nat) :
    (skipWhile source wanted rounds).run (behind passed line) =
      .ok () (behind (passed ++ rest.takeWhile wanted) line) := by
  rw [← behind_append, ← takeWhile_byteChars bytewise]
  exact run_skipWhile null (byteChars_split h) enough

theorem run_skipToQuote_behind {quote : Char} (ascii : quote.val ≤ 127)
    (h : source = passed ++ rest) (enough : (byteChars rest).length < rounds) (line : Nat) :
    (skipToQuote source quote rounds).run (behind passed line) =
      .ok () (behind (passed ++ rest.takeWhile (· != quote))
        (line + newlines (rest.takeWhile (· != quote)))) := by
  rw [← behind_append, ← newlines_byteChars, ← takeWhile_byteChars (.bne ascii)]
  exact run_skipToQuote (byteChars_split h) enough line

theorem run_matchByte_behind (ascii : c.val ≤ 127) (h : source = passed ++ c :: rest) :
    (matchByte source c).run (behind passed line) = .ok true (behind (passed ++ [c]) line) := by
  have bytes := byteChars_split h
  rw [byteChars_cons_of_ascii ascii] at bytes
  rw [← behind_ascii ascii]
  exact run_matchByte_of_eq bytes

theorem run_matchByte_other (ascii : c.val ≤ 127) (h : source = passed ++ rest)
    (other : rest.head? ≠ some c) :
    (matchByte source c).run (behind passed line) = .ok false (behind passed line) := by
  refine run_matchByte_of_ne (byteChars_split h) fun first => ?_
  obtain ⟨behind, rfl⟩ := exists_of_head?_byteChars ascii first
  exact other rfl

/-- Between two places between characters lies a text. -/
theorem run_slice {text : List Char} (h : source = passed ++ (text ++ rest)) (s : ByteCursor) :
    (slice source (byteChars passed).length (byteChars (passed ++ text)).length).run s =
      .ok text s := by
  have width : (byteChars (passed ++ text)).length - (byteChars passed).length =
      (byteChars text).length := by simp
  have forward : ¬ (byteChars (passed ++ text)).length < (byteChars passed).length := by simp
  rw [slice, if_neg forward, width, h, splitAtByte?_append]
  simp only [splitAtByte?_append]
  rfl

def told (result : Except LexFault TokenKind) (line : Nat) : Except LexError TokenKind :=
  result.mapError fun fault => ⟨fault, line⟩

/-- From a place, a step tells a lexeme of a text behind some other and goes behind it. -/
def Tells (step : Scanning (Except LexError TokenKind)) (s : ByteCursor) (passed : List Char)
    (line : Nat) (m : Munch) : Prop :=
  step.run s = .ok (told m.result line) (behind (passed ++ m.text) (line + newlines m.text))

theorem run_map_of_ok {α β : Type} {x : Scanning α} {f : α → β} {a : α} {s s' : ByteCursor}
    (h : x.run s = .ok a s') : (f <$> x).run s = .ok (f a) s' :=
  run_bind_of_ok (f := fun a => pure (f a)) h

theorem tells_name (h : source = passed ++ c :: after) (enough : (byteChars after).length < rounds)
    (letter : c.isAlpha = true) :
    Tells (.ok <$> name source rounds (behind passed line)) (behind (passed ++ [c]) line)
      passed line (munchName c after) := by
  have first : source = (passed ++ [c]) ++ after := by simpa using h
  have skipped := run_skipWhile_behind .isNameChar rfl first enough line
  have word : source = passed ++ ((munchName c after).text ++ (munchName c after).rest) := by
    rw [(munchName_splits c after).1, h]
  have oneLine : newlines (munchName c after).text = 0 :=
    newlines_of_solid (IsName.solid (longest_name letter).mem)
  have kind : (munchName c after).result =
      .ok ((Keyword.ofSpelling? (munchName c after).text).elim .identifier .keyword) := by
    simp only [munchName]
    cases Keyword.ofSpelling? (c :: after.takeWhile isNameChar) <;> rfl
  rw [List.append_assoc] at skipped
  rw [Tells, oneLine, kind]
  exact run_map_of_ok ((run_bind_of_ok skipped).trans
    ((run_bind_of_ok rfl).trans (run_bind_of_ok (run_slice word _))))

/-- A fraction is passed where the text behind the whole part begins with one. -/
theorem run_skipFraction (h : source = passed ++ rest)
    (enough : (byteChars rest).length < rounds) (line : Nat) :
    (skipFraction source rounds).run (behind passed line) =
      .ok () (behind (passed ++ (splitFraction rest).1) line) := by
  refine (run_bind_of_ok (run_peek_behind h)).trans ?_
  obtain ⟨d, more, rfl, digit, split⟩ | ⟨split, other⟩ := splitFraction_cases rest
  · have point : peeked ('.' :: d :: more) = '.' := peeked_cons_of_ascii (by decide) _
    have ahead : (peeked (d :: more)).isDigit = true := by
      rw [peeked_any .isDigit rfl]
      exact digit
    have first : source = (passed ++ ['.']) ++ d :: more := by simpa using h
    have fewer := length_byteChars_rest_le (List.singleton_append (x := '.') (l := d :: more)).symm
    have skipped := run_skipWhile_behind .isNumberChar rfl first (Nat.lt_of_le_of_lt fewer enough)
      line
    have number : isNumberChar d = true := by simp [isNumberChar, digit]
    rw [List.append_assoc, List.takeWhile_cons_of_pos number] at skipped
    rw [split, if_pos point]
    refine (run_bind_of_ok (run_peekNext_behind h (by decide))).trans ?_
    rw [if_pos ahead]
    exact (run_bind_of_ok (run_advance_behind h (by decide))).trans skipped
  · rw [split, List.append_nil]
    by_cases point : peeked rest = '.'
    · obtain ⟨more, rfl⟩ := exists_of_peeked (by decide) (by decide) point
      have ahead : ¬ (peeked more).isDigit = true := by
        rw [peeked_any .isDigit rfl]
        cases more with
        | nil => simp
        | cons d more => simp [other d more rfl]
      rw [if_pos point]
      refine (run_bind_of_ok (run_peekNext_behind h (by decide))).trans ?_
      rw [if_neg ahead]
      rfl
    · rw [if_neg point]
      rfl

/-- A number is parted again at its point. -/
theorem part_at_point (digit : c.isDigit = true) (after : List Char) :
    (wholePart c after ++ fractionPart after).takeWhile (· != '.') = wholePart c after ∧
      (wholePart c after ++ fractionPart after).dropWhile (· != '.') = fractionPart after := by
  have free : ∀ d ∈ wholePart c after, (d != '.') = true := by
    rintro d mem
    rw [bne_iff_ne]
    rintro rfl
    exact point_notMem_of_isDigits (isDigits_wholePart digit) mem
  rw [List.takeWhile_append_of_pos free, List.dropWhile_append_of_pos free]
  obtain none | ⟨digits, some, -⟩ := fractionPart_cases after
  · simp [none]
  · simp [some]

theorem tells_number (h : source = passed ++ c :: after)
    (enough : (byteChars after).length < rounds) (digit : c.isDigit = true) :
    Tells (number source rounds (behind passed line)) (behind (passed ++ [c]) line) passed line
      (munchNumber c after) := by
  have first : source = (passed ++ [c]) ++ after := by simpa using h
  have whole := run_skipWhile_behind .isNumberChar rfl first enough line
  have behindWhole : source = (passed ++ wholePart c after) ++ after.dropWhile isNumberChar := by
    rw [wholePart, h]
    simp
  have fewer := length_byteChars_rest_le (List.takeWhile_append_dropWhile (p := isNumberChar)
    (l := after)).symm
  have fraction := run_skipFraction behindWhole (Nat.lt_of_le_of_lt fewer enough) line
  have text : source = passed ++ ((wholePart c after ++ fractionPart after) ++
      (splitFraction (after.dropWhile isNumberChar)).2) := by
    rw [List.append_assoc, fractionPart, splitFraction_append, ← List.append_assoc, ← behindWhole]
  have oneLine : newlines (wholePart c after ++ fractionPart after) = 0 :=
    newlines_of_solid (IsNumber.solid (longest_number digit).mem)
  obtain ⟨parted, parted'⟩ := part_at_point digit after
  rw [List.append_assoc] at whole fraction
  rw [Tells, munchNumber_eq, oneLine]
  refine (run_bind_of_ok whole).trans ((run_bind_of_ok fraction).trans ((run_bind_of_ok rfl).trans
    ((run_bind_of_ok (run_slice text _)).trans ?_)))
  rw [parted, parted']
  cases numberKind? (wholePart c after) (fractionPart after) <;> rfl

section Quotes

variable {quote : Char} {content : List Char}

theorem ascii_of_isQuote (isQuote : quote = '"' ∨ quote = '\'') : quote.val ≤ 127 := by
  rcases isQuote with rfl | rfl <;> decide

theorem newlines_quote (isQuote : quote = '"' ∨ quote = '\'') (text : List Char) :
    newlines (quote :: text) = newlines text := by
  rcases isQuote with rfl | rfl
  · exact (newlines_append ['"'] text).trans (Nat.zero_add _)
  · exact (newlines_append ['\''] text).trans (Nat.zero_add _)

theorem ne_of_notMem (free : quote ∉ content) : ∀ d ∈ content, (d != quote) = true := by
  rintro d mem
  rw [bne_iff_ne]
  rintro rfl
  exact free mem

/-- A quoted text is told when its quote is closed. -/
theorem tells_text_of_quote (isQuote : quote = '"' ∨ quote = '\'') (free : quote ∉ content)
    (h : source = passed ++ quote :: (content ++ quote :: rest))
    (enough : (byteChars (content ++ quote :: rest)).length < rounds) :
    Tells (text source rounds (behind passed line) quote) (behind (passed ++ [quote]) line)
      passed line (munchText quote (content ++ quote :: rest)) := by
  have ascii := ascii_of_isQuote isQuote
  have first : source = (passed ++ [quote]) ++ (content ++ quote :: rest) := by simpa using h
  have before : source = (passed ++ [quote] ++ content) ++ quote :: rest := by simpa using h
  have skipped := run_skipToQuote_behind ascii first enough line
  rw [List.takeWhile_append_of_pos (ne_of_notMem free), List.takeWhile_cons_of_neg (by simp),
    List.append_nil] at skipped
  have more : byteChars source =
      byteChars (passed ++ [quote] ++ content) ++ quote :: byteChars rest := by
    rw [← byteChars_cons_of_ascii ascii, ← byteChars_append, ← before]
  have closing : (byteChars (passed ++ [quote] ++ content ++ [quote])).length - 1 =
      (byteChars (passed ++ [quote] ++ content)).length := by
    rw [length_byteChars_concat ascii, Nat.add_sub_cancel]
  have sliced := run_slice first (behind (passed ++ [quote] ++ content ++ [quote])
    (line + newlines content))
  rw [length_byteChars_concat ascii, ← closing] at sliced
  have lines : newlines (quote :: content ++ [quote]) = newlines content := by
    rw [newlines_append, newlines_quote isQuote, newlines_quote isQuote, newlines_nil, Nat.add_zero]
  rw [Tells, munchText_of_quote free, lines]
  refine (run_bind_of_ok skipped).trans ((run_bind_of_ok (run_isAtEnd more)).trans ?_)
  refine (run_bind_of_ok (run_advance_behind before ascii)).trans ((run_bind_of_ok rfl).trans ?_)
  refine (run_bind_of_ok sliced).trans ?_
  rw [List.append_assoc, List.append_assoc]
  rfl

/-- Without a closing quote the text takes all that is left of the source. -/
theorem tells_text_of_no_quote (isQuote : quote = '"' ∨ quote = '\'') (free : quote ∉ content)
    (h : source = passed ++ quote :: content) (enough : (byteChars content).length < rounds) :
    Tells (text source rounds (behind passed line) quote) (behind (passed ++ [quote]) line)
      passed line (munchText quote content) := by
  have ascii := ascii_of_isQuote isQuote
  have first : source = (passed ++ [quote]) ++ content := by simpa using h
  have all : content.takeWhile (· != quote) = content := by
    simpa using @List.takeWhile_append_of_pos _ (· != quote) content [] (ne_of_notMem free)
  have skipped := run_skipToQuote_behind ascii first enough line
  rw [all] at skipped
  have nothing : byteChars source = byteChars (passed ++ [quote] ++ content) ++ [] := by
    rw [List.append_nil, ← first]
  rw [Tells, munchText_of_no_quote free, newlines_quote isQuote]
  refine (run_bind_of_ok skipped).trans ((run_bind_of_ok (run_isAtEnd nothing)).trans ?_)
  rw [List.append_assoc]
  rfl

end Quotes

theorem tells_text (h : source = passed ++ c :: after)
    (enough : (byteChars after).length < rounds) (isQuote : c = '"' ∨ c = '\'') :
    Tells (text source rounds (behind passed line) c) (behind (passed ++ [c]) line) passed line
      (munchText c after) := by
  by_cases closed : c ∈ after
  · obtain ⟨content, rest, rfl, free⟩ := List.eq_append_cons_of_mem closed
    exact tells_text_of_quote isQuote free h enough
  · exact tells_text_of_no_quote isQuote closed h enough

section Comments

variable {body inside : List Char}

theorem run_bytesAhead_behind (h : source = passed ++ rest) :
    (bytesAhead source).run (behind passed line) = .ok (byteChars rest) (behind passed line) :=
  run_bytesAhead (byteChars_split h)

/-- A step over some text, of which only the number of bytes is told. -/
theorem run_skip_behind (passed text : List Char) (line : Nat) :
    (skip (byteChars text).length).run (behind passed line) =
      .ok () (behind (passed ++ text) line) := by
  rw [← behind_append]
  rfl

theorem run_slice_behind {text : List Char} (h : source = passed ++ (text ++ rest)) :
    (slice source (behind passed line).place ((behind passed line).place +
      (byteChars text).length)).run s = .ok text s := by
  have sliced := run_slice h s
  rw [byteChars_append, List.length_append] at sliced
  exact sliced

theorem run_lineComment (h : source = passed ++ '#' :: after) :
    (lineComment source (behind passed line)).run (behind (passed ++ ['#']) line) =
      .ok (.comment (String.ofList (after.takeWhile (· != '\n'))))
        (behind (passed ++ '#' :: after.takeWhile (· != '\n')) line) := by
  have first : source = (passed ++ ['#']) ++ after := by simpa using h
  have whole : source = (passed ++ ['#']) ++
      (after.takeWhile (· != '\n') ++ after.dropWhile (· != '\n')) := by
    rw [List.takeWhile_append_dropWhile, ← first]
  have skipped := run_skip_behind (passed ++ ['#']) (after.takeWhile (· != '\n')) line
  rw [← takeWhile_byteChars (.bne (by decide))] at skipped
  have sliced := run_slice whole (behind (passed ++ ['#'] ++ after.takeWhile (· != '\n')) line)
  rw [length_byteChars_concat (by decide)] at sliced
  refine (run_bind_of_ok (run_bytesAhead_behind first)).trans ((run_bind_of_ok skipped).trans ?_)
  refine (run_bind_of_ok rfl).trans ((run_bind_of_ok sliced).trans ?_)
  rw [List.append_assoc]
  rfl

theorem run_blockComment_of_fence (fence : splitAtFence? inside = some (body, rest))
    (h : source = passed ++ inside) :
    (blockComment source).run (behind passed line) =
      .ok (.comment (String.ofList body))
        (behind (passed ++ (body ++ ['#', '#'])) (line + newlines body)) := by
  have split := eq_append_of_splitAtFence? fence
  have content : source = passed ++ (body ++ '#' :: '#' :: rest) := by rw [h, split]
  have found : splitAtFence? (byteChars inside) = some (byteChars body, byteChars rest) := by
    rw [splitAtFence?_byteChars, fence]
    rfl
  have width : (byteChars body).length + 2 = (byteChars (body ++ ['#', '#'])).length := by
    rw [byteChars_append, List.length_append]
    rfl
  refine (run_bind_of_ok (run_bytesAhead_behind h)).trans ((run_bind_of_ok rfl).trans ?_)
  rw [found]
  simp only [newlines_byteChars, width]
  refine (run_bind_of_ok rfl).trans ((run_bind_of_ok (run_slice_behind content)).trans ?_)
  exact run_bind_of_ok (run_skip_behind _ _ _)

theorem run_blockComment_of_no_fence (fence : splitAtFence? inside = none)
    (h : source = passed ++ inside) :
    (blockComment source).run (behind passed line) =
      .ok (.comment (String.ofList inside))
        (behind (passed ++ inside) (line + newlines inside)) := by
  have content : source = passed ++ (inside ++ []) := by rw [h, List.append_nil]
  have found : splitAtFence? (byteChars inside) = none := by
    rw [splitAtFence?_byteChars, fence]
    rfl
  refine (run_bind_of_ok (run_bytesAhead_behind h)).trans ((run_bind_of_ok rfl).trans ?_)
  rw [found]
  simp only [newlines_byteChars]
  refine (run_bind_of_ok rfl).trans ((run_bind_of_ok (run_slice_behind content)).trans ?_)
  exact run_bind_of_ok (run_skip_behind _ _ _)

theorem tells_blockComment (h : source = passed ++ '#' :: '#' :: inside) :
    Tells (.ok <$> comment source (behind passed line)) (behind (passed ++ ['#']) line)
      passed line (munchComment ('#' :: inside)) := by
  have first : source = (passed ++ ['#']) ++ '#' :: inside := by simpa using h
  have second : source = (passed ++ ['#'] ++ ['#']) ++ inside := by simpa using h
  have entered : (comment source (behind passed line)).run (behind (passed ++ ['#']) line) =
      (blockComment source).run (behind (passed ++ ['#'] ++ ['#']) line) := by
    exact run_bind_of_ok (run_matchByte_behind (by decide) first)
  have opening : ∀ text, newlines ('#' :: '#' :: text) = newlines text := fun text =>
    (newlines_append ['#', '#'] text).trans (Nat.zero_add _)
  cases fence : splitAtFence? inside with
  | none =>
    have run := entered.trans (run_blockComment_of_no_fence fence second)
    rw [List.append_assoc, List.append_assoc] at run
    rw [Tells, munchComment_of_no_fence fence, opening]
    exact run_map_of_ok run
  | some parts =>
    have run := entered.trans (run_blockComment_of_fence fence second)
    have closing : newlines (parts.1 ++ ['#', '#']) = newlines parts.1 := newlines_append _ _
    rw [List.append_assoc, List.append_assoc] at run
    rw [Tells, munchComment_of_fence fence, List.cons_append, List.cons_append, opening, closing]
    exact run_map_of_ok run

theorem tells_lineComment (h : source = passed ++ '#' :: after) (single : after.head? ≠ some '#') :
    Tells (.ok <$> comment source (behind passed line)) (behind (passed ++ ['#']) line)
      passed line (munchComment after) := by
  have first : source = (passed ++ ['#']) ++ after := by simpa using h
  have entered : (comment source (behind passed line)).run (behind (passed ++ ['#']) line) =
      (lineComment source (behind passed line)).run (behind (passed ++ ['#']) line) := by
    exact run_bind_of_ok (run_matchByte_other (by decide) first single)
  have oneLine : newlines ('#' :: after.takeWhile (· != '\n')) = 0 := by
    have free : '\n' ∉ after.takeWhile (· != '\n') := fun mem => by
      simpa using List.all_eq_true.1 List.all_takeWhile _ mem
    exact List.count_eq_zero.2 (List.not_mem_cons_of_ne_of_not_mem (by decide) free)
  have cut : munchComment after = ⟨.ok (.comment (String.ofList (after.takeWhile (· != '\n')))),
      '#' :: after.takeWhile (· != '\n'), after.dropWhile (· != '\n')⟩ := by
    unfold munchComment
    split
    · exact absurd rfl single
    · rfl
  rw [Tells, cut, oneLine]
  exact run_map_of_ok (entered.trans (run_lineComment h))

theorem tells_comment (h : source = passed ++ '#' :: after) :
    Tells (.ok <$> comment source (behind passed line)) (behind (passed ++ ['#']) line)
      passed line (munchComment after) := by
  by_cases fenced : after.head? = some '#'
  · obtain ⟨inside, rfl⟩ := List.head?_eq_some_iff.1 fenced
    exact tells_blockComment h
  · exact tells_lineComment h fenced

end Comments

theorem tells_mark (first : Punctuator) (inLine : newlines [c] = 0)
    (h : source = passed ++ [c] ++ after) :
    Tells (.ok <$> mark source first) (behind (passed ++ [c]) line) passed line
      (munchMark first c after) := by
  by_cases double : ∃ longer rest, first.withEqual? = some longer ∧ after = '=' :: rest
  · obtain ⟨longer, rest, found, rfl⟩ := double
    have run : (matchByte source '=').run (behind (passed ++ [c]) line) = _ :=
      run_matchByte_behind (by decide) h
    have lines : newlines [c, '='] = 0 := (newlines_append [c] ['=']).trans inLine
    rw [List.append_assoc] at run
    simp only [Tells, munchMark, mark, found, lines]
    exact run_map_of_ok (run_bind_of_ok run)
  · have cut : munchMark first c after = ⟨.ok (.punctuator first), [c], after⟩ := by
      unfold munchMark
      split
      · next longer rest found => exact absurd ⟨longer, rest, found, rfl⟩ double
      · rfl
    rw [Tells, cut, inLine, mark]
    cases found : first.withEqual? with
    | none => rfl
    | some longer =>
      have other : after.head? ≠ some '=' := by
        intro equal
        obtain ⟨rest, is⟩ := List.head?_eq_some_iff.1 equal
        exact double ⟨longer, rest, found, is⟩
      exact run_map_of_ok (run_bind_of_ok (run_matchByte_other (by decide) h other))

/-- Whatever byte was read first, the whole character is passed. -/
theorem tells_unexpected (h : source = passed ++ c :: after) (inLine : newlines [c] = 0)
    (place : Nat) : Tells (.error <$> unexpected source (behind passed line)) ⟨place, line⟩ passed
      line ⟨.error (.unexpected c), [c], after⟩ := by
  have whole : source = passed ++ (c :: after ++ []) := by simpa using h
  have sliced := run_slice whole ⟨place, line⟩
  rw [← h] at sliced
  have width := behind_append passed [c] line
  rw [length_byteChars_singleton] at width
  rw [Tells, inLine]
  refine run_map_of_ok ((run_bind_of_ok sliced).trans ?_)
  exact congrArg (EStateM.Result.ok _) width

/-- No byte of a character past ASCII begins a token. -/
theorem not_beginsLexeme_of_wide (wide : 127 < c.val) : ¬ BeginsLexeme c := by
  rintro (letter | digit | rfl | rfl | rfl | ⟨p, head⟩)
  · rw [Bytewise.isAlpha_of_wide wide] at letter
    cases letter
  · rw [Bytewise.isDigit_of_wide wide] at digit
    cases digit
  · exact absurd wide (by decide)
  · exact absurd wide (by decide)
  · exact absurd wide (by decide)
  · have ascii : p.spelling.head?.all (fun d => decide (d.val ≤ 127)) = true := by
      cases p <;> decide
    rw [head] at ascii
    exact absurd wide (UInt32.not_lt.2 (of_decide_eq_true ascii))

theorem lexeme_of_nothing (h : ¬ BeginsLexeme c) (start : ByteCursor) :
    lexeme source rounds start c = .error <$> unexpected source start := by
  simp only [BeginsLexeme, not_or] at h
  obtain ⟨notLetter, notDigit, notDouble, notSingle, notHash, noMark⟩ := h
  have noQuote : ¬ (c = '"' ∨ c = '\'') := not_or.2 ⟨notDouble, notSingle⟩
  rw [lexeme, if_neg notLetter, if_neg notDigit, if_neg noQuote, if_neg notHash]
  cases mark : Punctuator.ofChar? c with
  | none => rfl
  | some p => exact absurd ⟨p, by rw [Punctuator.spelling_of_ofChar? mark]; rfl⟩ noMark

theorem tells_lexeme_behind_first (notBlank : isBlank c = false)
    (h : source = passed ++ c :: after) (enough : (byteChars after).length < rounds) :
    Tells (lexeme source rounds (behind passed line) c) (behind (passed ++ [c]) line) passed line
      (munch c after) := by
  have inLine : newlines [c] = 0 := newlines_of_solid (List.forall_mem_singleton.2 notBlank)
  unfold lexeme munch
  split
  · next letter => exact tells_name h enough letter
  · split
    · next digit => exact tells_number h enough digit
    · split
      · next isQuote => exact tells_text h enough isQuote
      · split
        · next hash =>
          subst hash
          exact tells_comment h
        · cases Punctuator.ofChar? c with
          | some first => exact tells_mark first inLine (by simpa using h)
          | none => exact tells_unexpected h inLine _

/-- What stands behind the first byte of a lexeme is told as what stands behind its first
character. -/
theorem tells_lexeme (notBlank : isBlank c = false) (h : source = passed ++ c :: after)
    (enough : (byteChars after).length < rounds) (line : Nat) :
    ∃ first, (advance source).run (behind passed line) =
        .ok first ⟨(byteChars passed).length + 1, line⟩ ∧ isBlank first = false ∧
      Tells (lexeme source rounds (behind passed line) first) ⟨(byteChars passed).length + 1, line⟩
        passed line (munch c after) := by
  by_cases ascii : c.val ≤ 127
  · rw [behind_ascii ascii]
    exact ⟨c, run_advance_behind h ascii, notBlank, tells_lexeme_behind_first notBlank h enough⟩
  · have wide : 127 < c.val := UInt32.not_le.1 ascii
    have inLine : newlines [c] = 0 := newlines_of_solid (List.forall_mem_singleton.2 notBlank)
    obtain ⟨d, ds, bytes⟩ := List.exists_cons_of_ne_nil (byteChars_singleton_ne_nil c)
    have wide' := wide_of_mem_byteChars wide (bytes ▸ List.mem_cons_self)
    have next : byteChars source = byteChars passed ++ d :: (ds ++ byteChars after) := by
      rw [byteChars_split h, byteChars_cons, bytes]
      rfl
    refine ⟨d, run_advance next, ?_, ?_⟩
    · rw [← Bool.not_eq_true, isBlank_iff]
      rintro (rfl | rfl | rfl | rfl) <;> exact absurd wide' (by decide)
    · rw [lexeme_of_nothing (not_beginsLexeme_of_wide wide'),
        munch_of_nothing (not_beginsLexeme_of_wide wide)]
      exact tells_unexpected h inLine _

end Scanning

end ScopedExpr
