import ScopedExpr.TokenCursor

/-!
# Steps of a cursor

A text consists of blanks alone, or of blanks and a first character that is none. In the
first case the end comes next, in the second the lexeme that begins with that character.
-/

namespace ScopedExpr

def Blank (text : List Char) : Prop := ∀ c ∈ text, isBlank c = true

theorem blank_takeWhile (text : List Char) : Blank (text.takeWhile isBlank) :=
  List.all_eq_true.1 List.all_takeWhile

theorem blank_or_split (text : List Char) :
    Blank text ∨ ∃ gap c after, text = gap ++ c :: after ∧ Blank gap ∧ isBlank c = false := by
  have whole := List.takeWhile_append_dropWhile (p := isBlank) (l := text)
  have stop := List.head?_dropWhile_not isBlank text
  cases left : text.dropWhile isBlank with
  | nil =>
    rw [left, List.append_nil] at whole
    rw [← whole]
    exact .inl (blank_takeWhile text)
  | cons c after =>
    rw [left] at whole stop
    exact .inr ⟨_, c, after, whole.symm, blank_takeWhile text, by simpa using stop⟩

def lexedItem (result : Except LexFault TokenKind) (lexeme : List Char) (line : Nat) :
    Except LexError Token :=
  match result with
  | .ok kind => .ok ⟨kind, String.ofList lexeme, line⟩
  | .error fault => .error ⟨fault, line⟩

namespace Cursor

variable {gap after : List Char} {c : Char}

theorem next?_blank (blank : Blank gap) (line : Nat) :
    (reading gap line).next? =
      some (.ok ⟨.endOfText, "", line + newlines gap⟩, finished (line + newlines gap)) := by
  have all : gap.takeWhile isBlank = gap := by
    simpa using @List.takeWhile_append_of_pos _ isBlank gap [] blank
  have nothing : gap.dropWhile isBlank = [] := by
    simpa using @List.dropWhile_append_of_pos _ isBlank gap [] blank
  simp only [next?, all, nothing]

theorem next?_lexeme (blank : Blank gap) (notBlank : isBlank c = false) (line : Nat) :
    (reading (gap ++ c :: after) line).next? =
      some (lexedItem (munch c after).result (munch c after).text (line + newlines gap),
        reading (munch c after).rest (line + newlines gap + newlines (munch c after).text)) := by
  have stop : ¬ isBlank c = true := by simp [notBlank]
  have run : (gap ++ c :: after).takeWhile isBlank = gap := by
    rw [List.takeWhile_append_of_pos blank, List.takeWhile_cons_of_neg stop, List.append_nil]
  have left : (gap ++ c :: after).dropWhile isBlank = c :: after := by
    rw [List.dropWhile_append_of_pos blank, List.dropWhile_cons_of_neg stop]
  simp only [next?, run, left]
  rfl

theorem items_of_some {c d : Cursor} {item : Except LexError Token}
    (h : c.next? = some (item, d)) : c.items = item :: d.items := by
  rw [items, trace_of_some h]
  rfl

theorem items_blank (blank : Blank gap) (line : Nat) :
    (reading gap line).items = [.ok ⟨.endOfText, "", line + newlines gap⟩] := by
  rw [items_of_some (next?_blank blank line), items, trace_finished]
  rfl

theorem items_lexeme (blank : Blank gap) (notBlank : isBlank c = false) (line : Nat) :
    (reading (gap ++ c :: after) line).items =
      lexedItem (munch c after).result (munch c after).text (line + newlines gap) ::
        (reading (munch c after).rest
          (line + newlines gap + newlines (munch c after).text)).items :=
  items_of_some (next?_lexeme blank notBlank line)

/-- To show something of all places in texts, show it where only blanks are left, and
before a lexeme when it holds behind it. -/
theorem reading_induction {motive : List Char → Nat → Prop}
    (blank : ∀ gap line, Blank gap → motive gap line)
    (lexeme : ∀ gap c after line, Blank gap → isBlank c = false →
      motive (munch c after).rest (line + newlines gap + newlines (munch c after).text) →
      motive (gap ++ c :: after) line)
    (text : List Char) (line : Nat) : motive text line := by
  induction len : text.length using Nat.strongRecOn generalizing text line with
  | ind n ih =>
    obtain all | ⟨gap, c, after, rfl, all, notBlank⟩ := blank_or_split text
    · exact blank text line all
    · have le := length_munch_rest_le c after
      have less : (munch c after).rest.length < n := by
        rw [← len, List.length_append, List.length_cons]
        omega
      exact lexeme gap c after line all notBlank (ih _ less _ _ rfl)

end Cursor

theorem collectTokens_eq_ok_iff {items : List (Except LexError Token)} {tokens : List Token} :
    collectTokens items = .ok tokens ↔ items = tokens.map .ok := by
  constructor
  · intro collected
    induction items generalizing tokens with
    | nil =>
      cases collected
      rfl
    | cons item items ih =>
      cases item with
      | error e => cases collected
      | ok token =>
        cases rest : collectTokens items with
        | error e => simp [collectTokens, rest, Functor.map, Except.map] at collected
        | ok more =>
          obtain rfl : token :: more = tokens := by
            simpa [collectTokens, rest, Functor.map, Except.map] using collected
          rw [ih rest]
          rfl
  · rintro rfl
    exact collectTokens_ok tokens

/-- To collect the tokens fails with the first fault among the items. -/
theorem collectTokens_eq_error_iff {items : List (Except LexError Token)} {fault : LexError} :
    collectTokens items = .error fault ↔
      ∃ (tokens : List Token) (after : List (Except LexError Token)),
        items = tokens.map .ok ++ .error fault :: after := by
  constructor
  · intro failed
    induction items with
    | nil => cases failed
    | cons item items ih =>
      cases item with
      | error e =>
        cases failed
        exact ⟨[], items, rfl⟩
      | ok token =>
        cases rest : collectTokens items with
        | ok more => simp [collectTokens, rest, Functor.map, Except.map] at failed
        | error e =>
          obtain rfl : e = fault := by
            simpa [collectTokens, rest, Functor.map, Except.map] using failed
          obtain ⟨tokens, after, rfl⟩ := ih rest
          exact ⟨token :: tokens, after, rfl⟩
  · rintro ⟨tokens, after, rfl⟩
    induction tokens with
    | nil => rfl
    | cons token tokens ih => simp [collectTokens, ih, Functor.map, Except.map]

theorem mem_textItems_of_tokensOf {text : String} {tokens : List Token} {t : Token}
    (scanned : tokensOf text = .ok tokens) (mem : t ∈ tokens) : .ok t ∈ textItems text.toList := by
  rw [collectTokens_eq_ok_iff.1 scanned]
  exact List.mem_map_of_mem mem

theorem mem_textItems_of_lexError {text : String} {fault : LexError}
    (failed : tokensOf text = .error fault) : .error fault ∈ textItems text.toList := by
  obtain ⟨tokens, after, split⟩ := collectTokens_eq_error_iff.1 failed
  rw [split]
  simp

end ScopedExpr
