import ScopedExpr.Proofs.LexemeBoundary

/-!
# Layouts of tokens

The lexemes of a source can be laid out in many ways: with any blanks before the first, and
with at least one blank between two of them, where the first blank behind a comment up to
the end of its line is that end. Each layout gives the tokens of the source again, only on
other lines.
-/

namespace ScopedExpr

/-- Blanks that can stand between a token and the next one. -/
structure Separates (gap : List Char) (token : Token) : Prop where
  blank : Blank gap
  nonempty : gap ≠ []
  lineEnd : isLineComment token = true → gap.head? = some '\n'

/-- The lexemes of tokens in order, with such blanks between neighbours. -/
inductive LaidOut : List Token → List Char → Prop where
  | nothing : LaidOut [] []
  | last {t} : LaidOut [t] t.lexeme.toList
  | next {t u ts gap text} (apart : Separates gap t) (more : LaidOut (u :: ts) text) :
      LaidOut (t :: u :: ts) (t.lexeme.toList ++ (gap ++ text))

def IsLayout (tokens : List Token) (text : String) : Prop :=
  ∃ gap body, text.toList = gap ++ body ∧ Blank gap ∧ LaidOut tokens body

/-- What a token is and how it is written, wherever it stands. -/
def Token.unplaced (t : Token) : TokenKind × String := (t.kind, t.lexeme)

theorem lexedItem_eq_ok_iff {result : Except LexFault TokenKind} {word : List Char}
    {line : Nat} {t : Token} : lexedItem result word line = .ok t ↔
      result = .ok t.kind ∧ word = t.lexeme.toList ∧ line = t.line := by
  obtain ⟨kind, lexeme, line'⟩ := t
  cases result with
  | ok k => simp [lexedItem, ← String.toList_inj]
  | error fault => simp [lexedItem]

namespace Scans

variable {line : Nat} {text body gap : List Char} {t ending : Token} {tokens : List Token}
  {items : List (Except LexError Token)}

/-- The lexeme of a token that is not the end begins a text, and the items behind the token
are those of the text behind the lexeme. -/
theorem of_cons (h : Scans line text (.ok t :: items)) (notLast : items ≠ []) :
    ∃ rest line', BeginsWith (t.lexeme.toList ++ rest) (.ok t.kind) t.lexeme.toList ∧
      Scans line' rest items := by
  generalize is : (.ok t :: items : List (Except LexError Token)) = all at h
  cases h with
  | nothing _ =>
    cases is
    exact absurd rfl notLast
  | item _ begins more =>
    obtain ⟨first, rfl⟩ := List.cons.inj is
    obtain ⟨rfl, rfl, -⟩ := lexedItem_eq_ok_iff.1 first.symm
    exact ⟨_, _, begins, more⟩

/-- Where nothing is left, only the end comes. -/
theorem length_of_nil (h : Scans line [] items) : items.length = 1 := by
  have nothing : Blank [] := by decide
  rw [← (items_eq_iff_scans [] line items).2 h, Cursor.items_blank nothing]
  rfl

/-- A token keeps its lexeme before new blanks, if they can stand behind it. -/
theorem relaid (begins : BeginsWith (t.lexeme.toList ++ text) (.ok t.kind) t.lexeme.toList)
    (rest : Scans line text items) (notLast : 1 < items.length) (apart : Separates gap t)
    (behind : List Char) :
    BeginsWith (t.lexeme.toList ++ (gap ++ behind)) (.ok t.kind) t.lexeme.toList := by
  obtain ⟨c, more, rfl⟩ := List.exists_cons_of_ne_nil apart.nonempty
  have closed : isOpenEnded (lexedItem (.ok t.kind) t.lexeme.toList t.line) = false := by
    rw [Bool.eq_false_iff]
    intro isOpen
    obtain rfl := begins.rest_of_openEnded isOpen
    rw [rest.length_of_nil] at notLast
    exact absurd notLast (Nat.lt_irrefl 1)
  refine begins.alone.before_blank (apart.blank c List.mem_cons_self) closed ?_
  rintro _ ⟨⟩ isLine
  rw [String.ofList_toList] at isLine
  exact Option.some.inj (apart.lineEnd isLine)

/-- A lexeme behind blanks gives its token on the line where it stands now. -/
theorem token (blank : Blank gap)
    (begins : BeginsWith (t.lexeme.toList ++ text) (.ok t.kind) t.lexeme.toList)
    (more : Scans (line + newlines gap + newlines t.lexeme.toList) text items) :
    Scans line (gap ++ (t.lexeme.toList ++ text))
      (.ok ⟨t.kind, t.lexeme, line + newlines gap⟩ :: items) := by
  have scans := Scans.item blank begins more
  rwa [lexedItem, String.ofList_toList] at scans

/-- A layout of tokens that were scanned scans to them again. -/
theorem laidOut (laid : LaidOut tokens body) (h : Scans line text ((tokens ++ [ending]).map .ok))
    (blank : Blank gap) (start : Nat) :
    ∃ again last, Scans start (gap ++ body) ((again ++ [⟨.endOfText, "", last⟩]).map .ok) ∧
      again.map Token.unplaced = tokens.map Token.unplaced := by
  induction laid generalizing line text gap start with
  | nothing =>
    rw [List.append_nil]
    exact ⟨[], _, .nothing blank, rfl⟩
  | @last t =>
    obtain ⟨rest, line', begins, -⟩ := h.of_cons (List.cons_ne_nil _ _)
    have alone : BeginsWith (t.lexeme.toList ++ []) (.ok t.kind) t.lexeme.toList := by
      rw [List.append_nil]
      exact begins.alone
    have nothing : Scans (start + newlines gap + newlines t.lexeme.toList) [] _ :=
      .nothing (by decide)
    have scans := token blank alone nothing
    rw [List.append_nil] at scans
    exact ⟨[⟨t.kind, t.lexeme, start + newlines gap⟩], _, scans, rfl⟩
  | @next t u ts gap' body apart _ ih =>
    obtain ⟨rest, line', begins, scans⟩ := h.of_cons (List.cons_ne_nil _ _)
    have begins' := relaid begins scans (by simp) apart body
    obtain ⟨again, last, more, same⟩ :=
      ih scans apart.blank (start + newlines gap + newlines t.lexeme.toList)
    refine ⟨⟨t.kind, t.lexeme, start + newlines gap⟩ :: again, last, token blank begins' more, ?_⟩
    rw [List.map_cons, same]
    rfl

end Scans

/-- Every layout of the tokens of a source scans, to tokens of the same kinds with the same
lexemes and contents in the same order, and the end behind them. -/
theorem tokensOf_layout {source text : String} {tokens : List Token} {line : Nat}
    (scanned : tokensOf source = .ok (tokens ++ [⟨.endOfText, "", line⟩]))
    (layout : IsLayout tokens text) :
    ∃ again last, tokensOf text = .ok (again ++ [⟨.endOfText, "", last⟩]) ∧
      again.map Token.unplaced = tokens.map Token.unplaced := by
  obtain ⟨gap, body, whole, blank, laid⟩ := layout
  have scans := (items_eq_iff_scans _ _ _).1 (collectTokens_eq_ok_iff.1 scanned)
  obtain ⟨again, last, relaid, same⟩ := scans.laidOut laid blank 1
  refine ⟨again, last, ?_, same⟩
  rw [tokensOf, whole]
  exact collectTokens_eq_ok_iff.2 ((items_eq_iff_scans _ _ _).2 relaid)

/-- A comment that its line end closes, and one that nothing closes. -/
def commentedTokens : List Token :=
  [⟨.identifier, "n", 1⟩, ⟨.comment "c", "#c", 1⟩, ⟨.punctuator .lessEqual, "<=", 2⟩,
    ⟨.comment "e", "##e", 2⟩]

theorem tokensOf_commentedTokens :
    tokensOf "n#c\n<=##e" = .ok (commentedTokens ++ [⟨.endOfText, "", 2⟩]) ∧
      IsLayout commentedTokens "\r\nn\t#c\n <= ##e" ∧
      ∃ again last, tokensOf "\r\nn\t#c\n <= ##e" = .ok (again ++ [⟨.endOfText, "", last⟩]) ∧
        again.map Token.unplaced = commentedTokens.map Token.unplaced := by
  have scanned : tokensOf "n#c\n<=##e" = .ok (commentedTokens ++ [⟨.endOfText, "", 2⟩]) := by
    decide +kernel
  have afterName : Separates ['\t'] ⟨.identifier, "n", 1⟩ :=
    ⟨by decide, by decide, by decide⟩
  have afterLine : Separates ['\n', ' '] ⟨.comment "c", "#c", 1⟩ :=
    ⟨by decide, by decide, by decide⟩
  have afterMark : Separates [' '] ⟨.punctuator .lessEqual, "<=", 2⟩ :=
    ⟨by decide, by decide, by decide⟩
  have layout : IsLayout commentedTokens "\r\nn\t#c\n <= ##e" :=
    ⟨['\r', '\n'], _, by decide +kernel, by decide,
      .next afterName (.next afterLine (.next afterMark .last))⟩
  exact ⟨scanned, layout, tokensOf_layout scanned layout⟩

end ScopedExpr
