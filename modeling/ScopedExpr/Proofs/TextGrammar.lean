import ScopedExpr.Proofs.CursorSteps
import ScopedExpr.Proofs.LexicalGrammar

/-!
# The grammar of whole texts

A text gives the items that the lexical grammar finds one behind the other, with blanks
between them. From every place on, these are the items of the cursor.
-/

namespace ScopedExpr

/-- A text from a line on gives items: blanks are left out, each item is the one that the
text begins with, and the end comes last. -/
inductive Scans : Nat → List Char → List (Except LexError Token) → Prop where
  | nothing {line gap} (blank : Blank gap) :
      Scans line gap [.ok ⟨.endOfText, "", line + newlines gap⟩]
  | item {line gap word rest result items} (blank : Blank gap)
      (begins : BeginsWith (word ++ rest) result word)
      (more : Scans (line + newlines gap + newlines word) rest items) :
      Scans line (gap ++ (word ++ rest))
        (lexedItem result word (line + newlines gap) :: items)

theorem isBlank_of_beginsLexeme {c : Char} (h : BeginsLexeme c) : isBlank c = false := by
  rw [← Bool.not_eq_true]
  intro blank
  have cases_blank : c = ' ' ∨ c = '\r' ∨ c = '\t' ∨ c = '\n' := by
    simpa [isBlank, or_assoc] using blank
  rcases h with letter | digit | rfl | rfl | rfl | ⟨p, head⟩
  · rcases cases_blank with rfl | rfl | rfl | rfl <;> cases letter
  · rcases cases_blank with rfl | rfl | rfl | rfl <;> cases digit
  · cases blank
  · cases blank
  · cases blank
  · obtain ⟨mark, is⟩ := ofChar?_of_head?_spelling head
    rcases cases_blank with rfl | rfl | rfl | rfl <;> cases is

namespace BeginsWith

variable {c : Char} {text word rest after : List Char} {result : Except LexFault TokenKind}

theorem cons (h : BeginsWith text result word) :
    ∃ c after, text = c :: after ∧ isBlank c = false := by
  cases h with
  | name front _ =>
    obtain ⟨c, more, rfl, letter, -⟩ := front.mem
    obtain ⟨rest, rfl⟩ := front.front
    exact ⟨c, more ++ rest, rfl, isBlank_of_beginsLexeme (.inl letter)⟩
  | number front _ =>
    obtain ⟨c, more, rfl, digit⟩ := front.mem.cons
    obtain ⟨rest, rfl⟩ := front.front
    exact ⟨c, more ++ rest, rfl, isBlank_of_beginsLexeme (.inr (.inl digit))⟩
  | @mark p front =>
    obtain ⟨rest, rfl⟩ := front.front
    obtain ⟨c, more, spelled⟩ := List.exists_cons_of_ne_nil p.spelling_ne_nil
    have begins : BeginsLexeme c := .inr (.inr (.inr (.inr (.inr ⟨p, by rw [spelled]; rfl⟩))))
    rw [spelled]
    exact ⟨c, more ++ rest, rfl, isBlank_of_beginsLexeme begins⟩
  | quoted quote split _ | unterminated quote split _ =>
    refine ⟨_, _, split, ?_⟩
    rcases quote with rfl | rfl <;> rfl
  | line split _ _ _ | fenced split _ | unfenced split _ => exact ⟨_, _, split, rfl⟩
  | strange split _ notBlank => exact ⟨_, _, split, notBlank⟩

theorem munch_of_append (h : BeginsWith (word ++ rest) result word)
    (split : word ++ rest = c :: after) : ScopedExpr.munch c after = ⟨result, word, rest⟩ := by
  rw [split] at h
  obtain ⟨kind, text⟩ := h.munch_eq
  have whole := (munch_splits c after).1
  rw [text, ← split] at whole
  have left := List.append_cancel_left whole
  rw [← kind, ← text, ← left]

theorem word_ne_nil (h : BeginsWith text result word) : word ≠ [] := by
  obtain ⟨c, after, rfl, -⟩ := h.cons
  have head := (munch_splits c after).2
  rw [h.munch_eq.2] at head
  rintro rfl
  cases head

end BeginsWith

/-- What a cursor gives is what the grammar finds. -/
theorem scans_items (text : List Char) (line : Nat) :
    Scans line text (Cursor.reading text line).items := by
  refine Cursor.reading_induction (motive := fun text line =>
    Scans line text (Cursor.reading text line).items) ?_ ?_ text line
  · intro gap line blank
    rw [Cursor.items_blank blank]
    exact .nothing blank
  · intro gap c after line blank notBlank more
    rw [Cursor.items_lexeme blank notBlank]
    have begins : BeginsWith (c :: after) (munch c after).result (munch c after).text :=
      .munch notBlank
    obtain ⟨split, -⟩ := munch_splits c after
    rw [← split] at begins ⊢
    exact .item blank begins more

/-- The items of a cursor before a text are exactly those that the lexical grammar finds
in the text, fault by fault and line by line. -/
theorem items_eq_iff_scans (text : List Char) (line : Nat)
    (items : List (Except LexError Token)) :
    (Cursor.reading text line).items = items ↔ Scans line text items := by
  constructor
  · rintro rfl
    exact scans_items text line
  · intro scans
    induction scans with
    | nothing blank => exact Cursor.items_blank blank _
    | item blank begins _ ih =>
      obtain ⟨c, after, split, notBlank⟩ := begins.cons
      have cut := begins.munch_of_append split
      rw [split, Cursor.items_lexeme blank notBlank, cut, ih]

end ScopedExpr
