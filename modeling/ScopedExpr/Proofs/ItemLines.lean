import ScopedExpr.Proofs.BytePulls
import ScopedExpr.Proofs.SourceTiling

/-!
# Lines of items

A cursor is asked for one item after the other, and so is the scanner of bytes. The line on
which they stand is always the one on which the text that they passed ends, whatever the items
were: blanks, texts and comments over several lines, or faults. So every item has the line on
which its own text begins, and the end has the last line of the source.
-/

namespace ScopedExpr

def itemLine : Except LexError Token → Nat
  | .ok token => token.line
  | .error fault => fault.line

@[simp] theorem itemLine_lexedItem (result : Except LexFault TokenKind) (lexeme : List Char)
    (line : Nat) : itemLine (lexedItem result lexeme line) = line := by
  cases result <;> rfl

namespace Cursor

def remaining : Cursor → List Char
  | reading rest _ => rest
  | finished _ => []

/-- A cursor stands in a source behind a text, on the line on which that text ends. -/
structure Passed (source passed : List Char) (c : Cursor) : Prop where
  whole : source = passed ++ c.remaining
  line : c.line = 1 + newlines passed

/-- An item lies in a source behind what was passed and blanks, on the line on which the text
before it ends; nothing comes behind the end. -/
structure Lies (source passed gap span behind : List Char) (item : Except LexError Token) :
    Prop where
  whole : source = passed ++ gap ++ (span ++ behind)
  blank : Blank gap
  span : SpanOf item (String.ofList span) (String.ofList behind)
  line : itemLine item = 1 + newlines (passed ++ gap)
  ending : IsEnd item → passed ++ gap = source

section Steps

variable {source passed : List Char} {c d : Cursor} {item : Except LexError Token}

theorem passed_start (source : List Char) : Passed source [] (start source) := ⟨rfl, rfl⟩

/-- Behind all that is left the end lies on the last line of the source. -/
theorem Passed.next_end {gap : List Char} {line : Nat} (blank : Blank gap)
    (h : Passed source passed (reading gap line)) :
    Lies source passed gap [] [] (.ok ⟨.endOfText, "", line + newlines gap⟩) ∧
      Passed source (passed ++ gap) (finished (line + newlines gap)) := by
  have whole : source = passed ++ gap := h.whole
  have counted : line = 1 + newlines passed := h.line
  have ending : line + newlines gap = 1 + newlines (passed ++ gap) := by
    rw [newlines_append, counted, Nat.add_assoc]
  constructor
  · exact ⟨by simpa using whole, blank, .token, ending, fun _ => whole.symm⟩
  · exact ⟨by simpa [remaining] using whole, ending⟩

/-- A lexeme lies behind the blanks before it, and the line ends in it are counted once it
is passed. -/
theorem Passed.next_lexeme {gap word rest : List Char} {result : Except LexFault TokenKind}
    {line : Nat} (blank : Blank gap) (begins : BeginsWith (word ++ rest) result word)
    (h : Passed source passed (reading (gap ++ (word ++ rest)) line)) :
    Lies source passed gap word rest (lexedItem result word (line + newlines gap)) ∧
      Passed source (passed ++ gap ++ word)
        (reading rest (line + newlines gap + newlines word)) := by
  have whole : source = passed ++ (gap ++ (word ++ rest)) := h.whole
  have counted : line = 1 + newlines passed := h.line
  have before : line + newlines gap = 1 + newlines (passed ++ gap) := by
    rw [newlines_append, counted, Nat.add_assoc]
  constructor
  · refine ⟨by simpa using whole, blank, begins.spanOf _, ?_, ?_⟩
    · rw [itemLine_lexedItem, before]
    · intro isEnd
      exact absurd isEnd (begins.not_end _)
  · refine ⟨by simpa [remaining] using whole, ?_⟩
    rw [newlines_append, ← Nat.add_assoc, ← before]
    rfl

/-- An item lies behind what was passed and the blanks after it, and is passed itself. -/
theorem Passed.next (h : Passed source passed c) (given : c.next? = some (item, d)) :
    ∃ gap span, Lies source passed gap span d.remaining item ∧
      Passed source (passed ++ gap ++ span) d := by
  cases c with
  | finished line => cases given
  | reading text line =>
    obtain blank | ⟨gap, first, after, rfl, blank, notBlank⟩ := blank_or_split text
    · rw [next?_blank blank] at given
      cases given
      refine ⟨text, [], ?_⟩
      rw [List.append_nil]
      exact h.next_end blank
    · have begins : BeginsWith (first :: after) (munch first after).result
          (munch first after).text := .munch notBlank
      rw [next?_lexeme blank notBlank] at given
      cases given
      rw [← (munch_splits first after).1] at begins h
      exact ⟨gap, (munch first after).text, h.next_lexeme blank begins⟩

/-- Asking a cursor keeps it on the line on which the text behind it ends. -/
theorem Passed.pull (h : Passed source passed c) : ∃ passed, Passed source passed c.pull.2 := by
  cases given : c.next? with
  | none =>
    rw [pull_of_none given]
    exact ⟨passed, h⟩
  | some step =>
    obtain ⟨gap, span, -, behind⟩ := h.next given
    rw [pull_of_some given]
    exact ⟨passed ++ gap ++ span, behind⟩

theorem passed_behindPulls (source : List Char) (n : Nat) :
    ∃ passed, Passed source passed ((start source).behindPulls n) := by
  induction n with
  | zero => exact ⟨[], passed_start source⟩
  | succ n ih =>
    obtain ⟨passed, h⟩ := ih
    rw [behindPulls_succ]
    exact h.pull

end Steps

end Cursor

/-- A scanner of bytes stands in a source behind a text, on the line on which that text ends;
one place past the last byte is no other place. -/
structure ByteCursor.Passed (source passed : List Char) (s : ByteCursor) : Prop where
  place : min s.place (byteChars source).length = (byteChars passed).length
  line : s.line = 1 + newlines passed

theorem StandsAt.passed {source passed : List Char} {c : Cursor} {s : ByteCursor}
    (h : StandsAt source c s) (behind : Cursor.Passed source passed c) :
    ByteCursor.Passed source passed s := by
  have whole := behind.whole
  have line := behind.line
  cases h with
  | reading split =>
    obtain rfl := List.append_cancel_right (split.symm.trans whole)
    exact ⟨Nat.min_eq_left (Scanning.place_le split), line⟩
  | finished =>
    obtain rfl : source = passed := whole.trans (List.append_nil passed)
    exact ⟨Nat.min_eq_right (Nat.le_succ _), line⟩

/-- However often the cursor and the scanner of bytes are asked, both stand behind the same text,
on the line on which it ends. The next item, token or fault, lies behind that text and blanks and
has the line on which these end, so that the end has the last line of the source; and its own
text is passed next. -/
theorem source_lines (source : String) (n : Nat) : ∃ passed,
    Cursor.Passed source.toList passed ((Cursor.start source.toList).behindPulls n) ∧
    ByteCursor.Passed source.toList passed (ByteCursor.behindPulls source.toList n) ∧
    (∀ rounds, source.utf8ByteSize < rounds →
      (Scanning.pull source.toList rounds).run (ByteCursor.behindPulls source.toList n) =
        .ok (textItems source.toList)[n]? (ByteCursor.behindPulls source.toList (n + 1))) ∧
    ∀ item, (textItems source.toList)[n]? = some item → ∃ gap span,
      Cursor.Lies source.toList passed gap span
          ((Cursor.start source.toList).behindPulls (n + 1)).remaining item ∧
        ByteCursor.Passed source.toList (passed ++ gap ++ span)
          (ByteCursor.behindPulls source.toList (n + 1)) := by
  obtain ⟨passed, h⟩ := Cursor.passed_behindPulls source.toList n
  have stands := ByteCursor.standsAt_behindPulls source.toList
  refine ⟨passed, h, (stands n).passed h, fun rounds enough => ?_, fun item nth => ?_⟩
  · refine ByteCursor.run_pull source.toList ?_ n
    rwa [length_byteChars, String.ofList_toList]
  · rw [textItems, Cursor.items, List.getElem?_map, Option.map_eq_some_iff] at nth
    obtain ⟨⟨_, next⟩, given, rfl⟩ := nth
    rw [Cursor.getElem?_trace] at given
    obtain ⟨gap, span, lies, behind⟩ := h.next given
    have following := stands (n + 1)
    rw [Cursor.behindPulls_succ, Cursor.pull_of_some given] at following ⊢
    exact ⟨gap, span, lies, following.passed behind⟩

end ScopedExpr
