import Mathlib.Logic.Function.Iterate
import ScopedExpr.Proofs.ByteLexemes
import ScopedExpr.Proofs.TextGrammar

/-!
# Items from bytes

Asked for items, the scanner of bytes gives those of the cursor over the text. No read is
refused and no loop goes on for ever: one round more than the source has bytes is enough, and
further rounds change nothing. So the scanner comes to the end after at most as many items as
the source has bytes: each item before the end passes a byte at least, a fault too, and behind
the end there is nothing.
-/

namespace ScopedExpr

def IsEnd (item : Except LexError Token) : Prop :=
  ∃ token, item = .ok token ∧ token.kind = .endOfText

theorem BeginsWith.not_end {text word : List Char} {result : Except LexFault TokenKind}
    (h : BeginsWith text result word) (line : Nat) : ¬ IsEnd (lexedItem result word line) := by
  rintro ⟨token, is, kind⟩
  cases h with
  | name _ reads => cases reads <;> cases is <;> cases kind
  | number _ reads => cases reads <;> cases is <;> cases kind
  | _ => cases is <;> cases kind

namespace Cursor

/-- Ask a cursor for an item. Behind the end it has none and stays where it is. -/
def pull (c : Cursor) : Option (Except LexError Token) × Cursor :=
  match c.next? with
  | some (item, d) => (some item, d)
  | none => (none, c)

/-- The place of a cursor that was asked so many times. -/
def behindPulls (c : Cursor) (n : Nat) : Cursor := (fun c => c.pull.2)^[n] c

section Pulls

variable {c d : Cursor} {item : Except LexError Token}

theorem pull_of_some (h : c.next? = some (item, d)) : c.pull = (some item, d) := by
  simp only [pull, h]

theorem pull_of_none (h : c.next? = none) : c.pull = (none, c) := by
  simp only [pull, h]

theorem behindPulls_succ (c : Cursor) (n : Nat) :
    c.behindPulls (n + 1) = (c.behindPulls n).pull.2 :=
  Function.iterate_succ_apply' _ n c

theorem behindPulls_of_none (h : c.next? = none) (n : Nat) : c.behindPulls n = c := by
  induction n with
  | zero => rfl
  | succ n ih => rw [behindPulls_succ, ih, pull_of_none h]

/-- The items of a cursor are what it gives when it is asked again and again. -/
theorem getElem?_trace (c : Cursor) (n : Nat) : c.trace[n]? = (c.behindPulls n).next? := by
  induction n generalizing c with
  | zero =>
    cases h : c.next? with
    | none => simp [trace_of_none h, behindPulls, h]
    | some step => simp [trace_of_some h, behindPulls, h]
  | succ n ih =>
    cases h : c.next? with
    | none => simp [trace_of_none h, behindPulls_of_none h, h]
    | some step =>
      have behind : c.behindPulls (n + 1) = step.2.behindPulls n := by
        rw [behindPulls, Function.iterate_succ_apply, pull_of_some h]
        rfl
      rw [trace_of_some h, List.getElem?_cons_succ, ih, behind]

end Pulls

end Cursor

open ByteCursor (behind)

/-- A place among the bytes of a source where a cursor over the text stands. -/
inductive StandsAt (source : List Char) : Cursor → ByteCursor → Prop where
  | reading {passed rest line} (whole : source = passed ++ rest) :
      StandsAt source (.reading rest line) (behind passed line)
  | finished {line} : StandsAt source (.finished line) ⟨(byteChars source).length + 1, line⟩

/-- From one place among the bytes of a source to another there are blanks, and then a text
that begins with another character. -/
def Passes (source : List Char) (s s' : ByteCursor) : Prop :=
  ∃ passed gap first text rest, source = passed ++ gap ++ first :: text ++ rest ∧
    Blank gap ∧ isBlank first = false ∧ s.place = (byteChars passed).length ∧
    s'.place = (byteChars (passed ++ gap ++ first :: text)).length

namespace Scanning

variable {source passed gap rest after : List Char} {c : Char} {line rounds : Nat}

theorem place_lt (h : source = passed ++ c :: after) :
    (byteChars passed).length < (byteChars source).length := by
  have pos := c.utf8Size_pos
  rw [byteChars_split h, byteChars_cons, List.length_append, List.length_append,
    length_byteChars_singleton]
  omega

theorem place_le (h : source = passed ++ rest) :
    (byteChars passed).length ≤ (byteChars source).length := by
  rw [byteChars_split h, List.length_append]
  exact Nat.le_add_right _ _

theorem run_lexeme?_blank (blank : isBlank c = true) (h : source = passed ++ c :: after) :
    (lexeme? source rounds (behind passed line)).run (behind passed line) =
      .ok none (behind (passed ++ [c]) (line + newlines [c])) := by
  have ascii : c.val ≤ 127 := by
    rcases isBlank_iff.1 blank with rfl | rfl | rfl | rfl <;> decide
  refine (run_bind_of_ok (run_advance_behind h ascii)).trans ?_
  rw [if_pos blank]
  exact (run_bind_of_ok (run_countLine c _)).trans rfl

theorem run_lexeme? (notBlank : isBlank c = false) (h : source = passed ++ c :: after)
    (enough : (byteChars after).length < rounds) :
    (lexeme? source rounds (behind passed line)).run (behind passed line) =
      .ok (some (told (munch c after).result line)) (behind (passed ++ (munch c after).text)
        (line + newlines (munch c after).text)) := by
  obtain ⟨first, advanced, solid, tells⟩ := tells_lexeme notBlank h enough line
  refine (run_bind_of_ok advanced).trans ?_
  rw [if_neg (by simp [solid])]
  exact run_map_of_ok tells

theorem run_pull_succ (h : source = passed ++ c :: after)
    {told : Option (Except LexError TokenKind)} {s : ByteCursor}
    (run : (lexeme? source rounds (behind passed line)).run (behind passed line) = .ok told s) :
    (pull source (rounds + 1)).run (behind passed line) =
      (told.elim (pull source rounds)
        fun told => some <$> item source (behind passed line) told).run s := by
  have before := place_lt h
  have notBehind : ¬ (byteChars source).length < (behind passed line).place := Nat.lt_asymm before
  have notEnd : ¬ (behind passed line).place = (byteChars source).length := Nat.ne_of_lt before
  refine (run_bind_of_ok rfl).trans ?_
  rw [if_neg notBehind, if_neg notEnd]
  refine (run_bind_of_ok run).trans ?_
  cases told <;> rfl

/-- Each blank takes a round. -/
theorem run_pull_gap (blank : Blank gap) (rounds : Nat)
    (h : source = passed ++ (gap ++ rest)) (line : Nat) :
    (pull source (rounds + gap.length)).run (behind passed line) =
      (pull source rounds).run (behind (passed ++ gap) (line + newlines gap)) := by
  induction gap generalizing passed line with
  | nil => simp
  | cons c gap ih =>
    have first : isBlank c = true := blank c List.mem_cons_self
    have others : Blank gap := fun d mem => blank d (List.mem_cons_of_mem c mem)
    have next : source = (passed ++ [c]) ++ (gap ++ rest) := by simpa using h
    have rest := ih others next (line + newlines [c])
    rw [Nat.add_assoc, ← newlines_append, List.append_assoc] at rest
    rw [List.length_cons, ← Nat.add_assoc]
    exact (run_pull_succ h (run_lexeme?_blank first h)).trans rest

/-- With more rounds than bytes there are, one is left behind the blanks, and so many more as
there are bytes then. -/
theorem exists_rounds (enough : (byteChars (gap ++ rest)).length < rounds) :
    ∃ more, rounds = more + 1 + gap.length ∧ (byteChars rest).length ≤ more := by
  have short := length_le_length_byteChars gap
  rw [byteChars_append, List.length_append] at enough
  exact ⟨rounds - gap.length - 1, by omega, by omega⟩

theorem run_pull_end (blank : Blank gap) (h : source = passed ++ gap)
    (enough : (byteChars gap).length < rounds) :
    (pull source rounds).run (behind passed line) =
      .ok (some (.ok ⟨.endOfText, "", line + newlines gap⟩))
        ⟨(byteChars source).length + 1, line + newlines gap⟩ := by
  have whole : source = passed ++ (gap ++ []) := by rw [h, List.append_nil]
  have here : behind (passed ++ gap) (line + newlines gap) =
      ⟨(byteChars source).length, line + newlines gap⟩ := by rw [h, behind]
  rw [← List.append_nil gap] at enough
  obtain ⟨more, rfl, -⟩ := exists_rounds enough
  rw [run_pull_gap blank _ whole, here]
  refine (run_bind_of_ok rfl).trans ?_
  simp only [Nat.lt_irrefl, if_false, if_true]
  rfl

theorem run_pull_finished (line : Nat) (some : 0 < rounds) :
    (pull source rounds).run ⟨(byteChars source).length + 1, line⟩ =
      .ok none ⟨(byteChars source).length + 1, line⟩ := by
  obtain ⟨more, rfl⟩ := Nat.exists_eq_add_one.2 some
  refine (run_bind_of_ok rfl).trans ?_
  simp only [Nat.lt_succ_self, if_true]
  rfl

theorem run_item {m : Munch} (h : source = passed ++ (m.text ++ m.rest)) :
    (item source (behind passed line) (told m.result line)).run
        (behind (passed ++ m.text) (line + newlines m.text)) =
      .ok (lexedItem m.result m.text line)
        (behind (passed ++ m.text) (line + newlines m.text)) := by
  cases result : m.result with
  | error fault => rfl
  | ok kind => exact (run_bind_of_ok rfl).trans (run_bind_of_ok (run_slice h _))

theorem run_pull_lexeme (blank : Blank gap) (notBlank : isBlank c = false)
    (h : source = passed ++ (gap ++ c :: after))
    (enough : (byteChars (gap ++ c :: after)).length < rounds) :
    (pull source rounds).run (behind passed line) =
      .ok (some (lexedItem (munch c after).result (munch c after).text (line + newlines gap)))
        (behind (passed ++ gap ++ (munch c after).text)
          (line + newlines gap + newlines (munch c after).text)) := by
  have here : source = (passed ++ gap) ++ c :: after := by simpa using h
  have split : source = (passed ++ gap) ++ ((munch c after).text ++ (munch c after).rest) := by
    rw [(munch_splits c after).1, here]
  obtain ⟨more, rfl, left⟩ := exists_rounds enough
  have fewer : (byteChars after).length < more := by
    have first := c.utf8Size_pos
    rw [byteChars_cons, List.length_append, length_byteChars_singleton] at left
    omega
  rw [run_pull_gap blank _ h, run_pull_succ here (run_lexeme? notBlank here fewer)]
  exact run_map_of_ok (run_item split)

end Scanning

section Pull

variable {source : List Char} {c d : Cursor} {s s' : ByteCursor}
  {item : Except LexError Token}

/-- Asked for an item, the scanner of bytes gives that of the cursor and goes to a place where
the cursor stands behind it. -/
theorem StandsAt.pull (h : StandsAt source c s) : ∃ s', StandsAt source c.pull.2 s' ∧
    ∀ rounds, (byteChars source).length < rounds →
      (Scanning.pull source rounds).run s = .ok c.pull.1 s' := by
  cases h with
  | finished =>
    refine ⟨_, .finished, fun rounds enough => ?_⟩
    exact Scanning.run_pull_finished _ (Nat.zero_lt_of_lt enough)
  | @reading passed rest line whole =>
    have left := length_byteChars_rest_le whole
    obtain blank | ⟨gap, first, after, rfl, blank, notBlank⟩ := blank_or_split rest
    · rw [Cursor.pull_of_some (Cursor.next?_blank blank line)]
      refine ⟨_, .finished, fun rounds enough => ?_⟩
      exact Scanning.run_pull_end blank whole (Nat.lt_of_le_of_lt left enough)
    · rw [Cursor.pull_of_some (Cursor.next?_lexeme blank notBlank line)]
      have behindIt : source = (passed ++ gap ++ (munch first after).text) ++
          (munch first after).rest := by
        rw [List.append_assoc, List.append_assoc, (munch_splits first after).1, whole]
      refine ⟨_, .reading behindIt, fun rounds enough => ?_⟩
      exact Scanning.run_pull_lexeme blank notBlank whole (Nat.lt_of_le_of_lt left enough)

/-- An item before the end passes blanks and a text of its own. -/
theorem StandsAt.passes (h : StandsAt source c s) (given : c.next? = some (item, d))
    (more : ¬ IsEnd item) {rounds : Nat} (enough : (byteChars source).length < rounds)
    (run : (Scanning.pull source rounds).run s = .ok (some item) s') : Passes source s s' := by
  cases h with
  | finished => cases given
  | @reading passed rest line whole =>
    have left := length_byteChars_rest_le whole
    obtain blank | ⟨gap, first, after, rfl, blank, notBlank⟩ := blank_or_split rest
    · rw [Cursor.next?_blank blank] at given
      cases given
      exact absurd ⟨_, rfl, rfl⟩ more
    · rw [Scanning.run_pull_lexeme blank notBlank whole (Nat.lt_of_le_of_lt left enough)] at run
      cases run
      have split := munch_splits first after
      obtain ⟨word, text⟩ := List.head?_eq_some_iff.1 split.2
      refine ⟨passed, gap, first, word, (munch first after).rest, ?_, blank, notBlank, rfl, ?_⟩
      · rw [← text, List.append_assoc (passed ++ gap), split.1, whole, List.append_assoc]
      · rw [← text, behind]

/-- What is passed has a byte at least, and no place behind the source is reached. -/
theorem Passes.progress (h : Passes source s s') :
    s.place < s'.place ∧ s'.place ≤ (byteChars source).length := by
  obtain ⟨passed, gap, first, text, rest, whole, -, -, start, stop⟩ := h
  have pos := first.utf8Size_pos
  rw [start, stop]
  refine ⟨?_, Scanning.place_le whole⟩
  rw [byteChars_append, byteChars_append, byteChars_cons first text]
  simp only [List.length_append, length_byteChars_singleton]
  omega

end Pull

/-- Items end with the end of the text, and there is no other end among them. -/
theorem items_eq_concat_end (text : List Char) (line : Nat) :
    ∃ before last, (Cursor.reading text line).items = before ++ [last] ∧ IsEnd last ∧
      ∀ item ∈ before, ¬ IsEnd item := by
  induction text, line using Cursor.reading_induction with
  | blank gap line blank =>
    exact ⟨[], _, Cursor.items_blank blank line, ⟨_, rfl, rfl⟩, by simp⟩
  | lexeme gap c after line blank notBlank ih =>
    obtain ⟨before, last, items, ending, others⟩ := ih
    have begins : BeginsWith (c :: after) (munch c after).result (munch c after).text :=
      .munch notBlank
    rw [Cursor.items_lexeme blank notBlank, items]
    exact ⟨_ :: before, last, rfl, ending, List.forall_mem_cons.2 ⟨begins.not_end _, others⟩⟩

theorem length_textItems_le (text : List Char) : (textItems text).length ≤ text.length + 1 := by
  rw [textItems, Cursor.items, List.length_map]
  exact Cursor.length_trace_le (Cursor.start text)

namespace ByteCursor

def behindPulls (source : List Char) : Nat → ByteCursor
  | 0 => ⟨0, 1⟩
  | n + 1 =>
    match (Scanning.pull source ((byteChars source).length + 1)).run (behindPulls source n) with
    | .ok _ s => s
    | .error _ s => s

theorem standsAt_behindPulls (source : List Char) (n : Nat) :
    StandsAt source ((Cursor.start source).behindPulls n) (behindPulls source n) := by
  induction n with
  | zero =>
    have start : StandsAt source (.reading source 1) (behind [] 1) := .reading rfl
    exact start
  | succ n ih =>
    obtain ⟨s', stands, run⟩ := ih.pull
    rw [Cursor.behindPulls_succ, behindPulls, run _ (Nat.lt_succ_self _)]
    exact stands

theorem run_pull (source : List Char) {rounds : Nat} (enough : (byteChars source).length < rounds)
    (n : Nat) : (Scanning.pull source rounds).run (behindPulls source n) =
      .ok (textItems source)[n]? (behindPulls source (n + 1)) := by
  obtain ⟨s', -, run⟩ := (standsAt_behindPulls source n).pull
  have nth : (textItems source)[n]? = ((Cursor.start source).behindPulls n).pull.1 := by
    rw [textItems, Cursor.items, List.getElem?_map, Cursor.getElem?_trace, Cursor.pull]
    cases ((Cursor.start source).behindPulls n).next? <;> rfl
  rw [nth, behindPulls, run _ (Nat.lt_succ_self _)]
  exact run rounds enough

/-- Each item but the last one passes a text of its own. -/
theorem passes_behindPulls {source : List Char} {n : Nat}
    (inside : n + 1 < (textItems source).length) :
    Passes source (behindPulls source n) (behindPulls source (n + 1)) := by
  obtain ⟨before, last, items, -, others⟩ := items_eq_concat_end source 1
  have whole : textItems source = before ++ [last] := items
  have early : n < before.length := by
    rw [whole, List.length_append, List.length_singleton] at inside
    exact Nat.lt_of_succ_lt_succ inside
  have nth : (textItems source)[n]? = some before[n] := by
    rw [whole, List.getElem?_append_left early, List.getElem?_eq_getElem early]
  have run := run_pull source (Nat.lt_succ_self _) n
  rw [nth] at run
  rw [textItems, Cursor.items, List.getElem?_map, Option.map_eq_some_iff] at nth
  obtain ⟨⟨item, d⟩, step, same⟩ := nth
  rw [Cursor.getElem?_trace] at step
  rw [← same] at run
  have more : ¬ IsEnd item := by
    intro isEnd
    rw [show item = before[n] from same] at isEnd
    exact others _ (List.getElem_mem early) isEnd
  exact (standsAt_behindPulls source n).passes step more (Nat.lt_succ_self _) run

end ByteCursor

/-- With more rounds for its loops than the source has bytes, the scanner of bytes gives all
items and then nothing more when it is asked again and again, and no read is refused: there are
at most as many items before the end as bytes, the end is the last item and no other item is
one, and each item before it passes blanks and then a byte at least. The scan of a whole source
is all items, or the first fault among them. -/
theorem items_of_bytes (source : String) :
    (∀ rounds, source.utf8ByteSize < rounds → ∀ n,
      (Scanning.pull source.toList rounds).run (ByteCursor.behindPulls source.toList n) =
        .ok (textItems source.toList)[n]? (ByteCursor.behindPulls source.toList (n + 1))) ∧
    (textItems source.toList).length ≤ source.utf8ByteSize + 1 ∧
    (∃ before last, textItems source.toList = before ++ [last] ∧ IsEnd last ∧
      ∀ item ∈ before, ¬ IsEnd item) ∧
    (∀ n, n + 1 < (textItems source.toList).length →
      Passes source.toList (ByteCursor.behindPulls source.toList n)
          (ByteCursor.behindPulls source.toList (n + 1)) ∧
        (ByteCursor.behindPulls source.toList n).place <
          (ByteCursor.behindPulls source.toList (n + 1)).place ∧
        (ByteCursor.behindPulls source.toList (n + 1)).place ≤ source.utf8ByteSize) ∧
    (∀ tokens, tokensOf source = .ok tokens ↔ textItems source.toList = tokens.map .ok) ∧
    ∀ fault, tokensOf source = .error fault ↔
      ∃ (tokens : List Token) (after : List (Except LexError Token)),
        textItems source.toList = tokens.map .ok ++ .error fault :: after := by
  have size : (byteChars source.toList).length = source.utf8ByteSize := by
    rw [length_byteChars, String.ofList_toList]
  refine ⟨fun rounds enough => ?_, ?_, items_eq_concat_end source.toList 1, fun n inside => ?_,
    fun tokens => collectTokens_eq_ok_iff, fun fault => collectTokens_eq_error_iff⟩
  · rw [← size] at enough
    exact ByteCursor.run_pull source.toList enough
  · have short := length_textItems_le source.toList
    have narrow := length_le_length_byteChars source.toList
    omega
  · have passes := ByteCursor.passes_behindPulls inside
    rw [← size]
    exact ⟨passes, passes.progress⟩

/-- The first item of `é=` passes both bytes of `é`, and four rounds are enough to be told it. -/
theorem items_of_bytes_wide : "é=".utf8ByteSize < 4 ∧
    (Scanning.pull "é=".toList 4).run ⟨0, 1⟩ =
      .ok (some (.error ⟨.unexpected 'é', 1⟩)) (ByteCursor.behindPulls "é=".toList 1) ∧
    0 + 1 < (textItems "é=".toList).length ∧
    (ByteCursor.behindPulls "é=".toList 1).place = 2 ∧
    (ByteCursor.behindPulls "é=".toList 0).place < (ByteCursor.behindPulls "é=".toList 1).place ∧
    (ByteCursor.behindPulls "é=".toList 1).place ≤ "é=".utf8ByteSize := by
  have enough : "é=".utf8ByteSize < 4 := by decide +kernel
  have inside : 0 + 1 < (textItems "é=".toList).length := by decide +kernel
  have first : (textItems "é=".toList)[0]? = some (.error ⟨.unexpected 'é', 1⟩) := by decide +kernel
  exact ⟨enough, ((items_of_bytes "é=").1 4 enough 0).trans (by rw [first]), inside,
    by decide +kernel,
    ((items_of_bytes "é=").2.2.2.1 0 inside).2⟩

end ScopedExpr
