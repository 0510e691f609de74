import ScopedExpr.Proofs.PrintedValues
import ScopedExpr.Proofs.TokenEquality

/-!
# Displayed literals

A literal that a text can write without quotes is shown as one word of the lexical grammar. A
word stands for one thing only, so such a literal is told by what is shown of it: an integer
is told from a whole binary64 number, and both from an infinity, which is shown as a name.
-/

namespace ScopedExpr

def isWordChar (c : Char) : Bool := isNameChar c || c == '.'

def TokenKind.isWord : TokenKind → Bool
  | .keyword _ | .identifier | .integer _ | .float _ => true
  | _ => false

theorem IsName.isWordChar {word : List Char} (h : IsName word) :
    ∀ c ∈ word, isWordChar c = true := by
  obtain ⟨first, after, rfl, letter, all⟩ := h
  refine List.forall_mem_cons.2 ⟨?_, fun c mem => ?_⟩
  · simp [ScopedExpr.isWordChar, isNameChar, Char.isAlphanum, letter]
  · simp [ScopedExpr.isWordChar, all c mem]

theorem IsDigits.isWordChar {word : List Char} (h : IsDigits word) :
    ∀ c ∈ word, isWordChar c = true := by
  obtain ⟨first, after, rfl, digit, all⟩ := h
  refine List.forall_mem_cons.2 ⟨?_, fun c mem => ?_⟩
  · simp [ScopedExpr.isWordChar, isNameChar, Char.isAlphanum, digit]
  · have inNumbers : c.isDigit = true ∨ c = '_' := by simpa [isNumberChar] using all c mem
    rcases inNumbers with digit | rfl
    · simp [ScopedExpr.isWordChar, isNameChar, Char.isAlphanum, digit]
    · rfl

theorem IsNumber.isWordChar {word : List Char} (h : IsNumber word) :
    ∀ c ∈ word, isWordChar c = true := by
  rcases h with digits | ⟨whole, fraction, rfl, wholeDigits, fractionDigits⟩
  · exact digits.isWordChar
  · have behind : ∀ c ∈ '.' :: fraction, ScopedExpr.isWordChar c = true :=
      List.forall_mem_cons.2 ⟨rfl, fractionDigits.isWordChar⟩
    exact List.forall_mem_append.2 ⟨wholeDigits.isWordChar, behind⟩

section Words

variable {text word : List Char} {kind : TokenKind} {c : Char}

theorem BeginsWith.isWordChar (h : BeginsWith text (.ok kind) word) (is : kind.isWord = true) :
    ∀ c ∈ word, isWordChar c = true := by
  cases h with
  | name front _ => exact front.mem.isWordChar
  | number front _ => exact front.mem.isWordChar
  | mark _ | quoted _ _ _ | line _ _ _ _ | fenced _ _ | unfenced _ _ => cases is

theorem BeginsWith.notMem_of_isWord (h : BeginsWith text (.ok kind) word)
    (is : kind.isWord = true) (other : ScopedExpr.isWordChar c = false) : c ∉ word := by
  intro mem
  rw [h.isWordChar is c mem] at other
  cases other

theorem BeginsWith.blank_notMem_of_mark {p : Punctuator}
    (h : BeginsWith text (.ok (.punctuator p)) word) : ' ' ∉ word := by
  cases h with
  | name _ reads => cases reads
  | number _ reads => cases reads
  | mark front =>
    intro mem
    cases front.mem.solid ' ' mem

theorem beginsWith_name (name : IsName word) (reads : NameReads word kind) :
    BeginsWith word (.ok kind) word :=
  .name ⟨List.prefix_rfl, name, fun _ front _ => front.length_le⟩ reads

end Words

theorem Token.ToldByLexeme.begins {t : Token} (h : t.ToldByLexeme) (notEnd : t.kind ≠ .endOfText) :
    BeginsWith t.lexeme.toList (.ok t.kind) t.lexeme.toList :=
  h.resolve_left fun isEnd => notEnd isEnd.1

namespace Value

/-- The literals that a text can write without quotes: no number has a sign. -/
def IsUnquoted : Value → Prop
  | .none | .bool _ => True
  | .integer n => 0 ≤ n.toInt
  | .float x => (∃ m, x = .finite false m) ∨ x = .infinite false
  | .text _ => False

def shownKind : Value → TokenKind
  | .float (.infinite _) => .identifier
  | v => v.tokenKind

variable {v w : Value} {t : Token}

theorem isUnquoted_of_told (kind : t.kind = v.tokenKind) (told : t.ToldByLexeme)
    (noText : ∀ content, v ≠ .text content) : v.IsUnquoted := by
  have begins := told.begins (by rw [kind]; rcases v with _ | (_ | _) | _ | _ | _ <;> nofun)
  rw [kind] at begins
  cases v with
  | none | bool => trivial
  | text content => exact absurd rfl (noText content)
  | integer n =>
    cases begins with
    | name _ reads => cases reads
    | number _ reads =>
      cases reads with
      | integer _ _ value =>
        rw [IsUnquoted, value]
        exact Int.natCast_nonneg _
  | float x =>
    cases begins with
    | name _ reads => cases reads
    | number _ reads =>
      cases reads
      unfold IsUnquoted Decimal.toBinary64 Binary64.nearest
      simp only
      split
      · exact .inl ⟨_, rfl⟩
      · exact .inr rfl

theorem isWord_shownKind (h : v.IsUnquoted) : v.shownKind.isWord = true := by
  rcases v with _ | (_ | _) | n | x | content
  · rfl
  · rfl
  · rfl
  · rfl
  · cases x <;> rfl
  · cases h

/-- A literal is shown as a word of its own kind, but an infinity as a name. -/
theorem begins_display (h : v.IsUnquoted) :
    BeginsWith v.display.toList (.ok v.shownKind) v.display.toList := by
  rcases v with _ | (_ | _) | n | x | content
  · exact beginsWith_keyword .noneWord
  · exact beginsWith_keyword .falseWord
  · exact beginsWith_keyword .trueWord
  · obtain ⟨k, is⟩ := Int.eq_ofNat_of_zero_le h
    have digits : n.toInt = readDigits (natNumeral k) := by rw [is, readDigits_natNumeral]
    rw [display, is, String.toList_ofList]
    exact beginsWith_integer (.natNumeral k) digits
  · obtain ⟨m, rfl⟩ | rfl := h
    · obtain ⟨whole, fraction, written, hw, hf, read⟩ := NumberStyle.exists_writeMagnitude
        (fun _ => rfl : ∀ e, NumberStyle.shown.positional e = true) m
      have begins := beginsWith_float hw hf read
      rw [← written] at begins
      rw [display, NumberStyle.write, if_neg Bool.false_ne_true, String.toList_ofList]
      exact begins
    · refine beginsWith_name ⟨'i', ['n', 'f'], ?_, rfl, ?_⟩ (.identifier fun k => ?_)
      · rfl
      · exact List.all_eq_true.1 (by decide)
      · cases k <;> decide
  · cases h

/-- The kind tells the literal, and an infinity by being the kind of no literal. -/
theorem shownKind_cases (h : v.IsUnquoted) :
    (v = .float (.infinite false) ∧ Reading.literal? v.shownKind = Option.none) ∨
      Reading.literal? v.shownKind = some v := by
  rcases v with _ | (_ | _) | n | x | content
  · exact .inr rfl
  · exact .inr rfl
  · exact .inr rfl
  · exact .inr rfl
  · obtain ⟨m, rfl⟩ | rfl := h
    · exact .inr rfl
    · exact .inl ⟨rfl, rfl⟩
  · cases h

theorem eq_of_shownKind_eq (hv : v.IsUnquoted) (hw : w.IsUnquoted)
    (same : v.shownKind = w.shownKind) : v = w := by
  have hv := shownKind_cases hv
  rw [same] at hv
  obtain ⟨rfl, noLiteral⟩ | literal := hv
  · obtain ⟨rfl, -⟩ | literal := shownKind_cases hw
    · rfl
    · rw [noLiteral] at literal
      cases literal
  · obtain ⟨-, noLiteral⟩ | literal' := shownKind_cases hw
    · rw [noLiteral] at literal
      cases literal
    · exact Option.some.inj (literal.symm.trans literal')

/-- What is shown of an unquoted literal tells which one it is. -/
theorem eq_of_display_eq (hv : v.IsUnquoted) (hw : w.IsUnquoted)
    (same : v.display = w.display) : v = w := by
  have begins := begins_display hw
  rw [← same] at begins
  exact eq_of_shownKind_eq hv hw (Except.ok.inj ((begins_display hv).unique begins))

end Value

end ScopedExpr
