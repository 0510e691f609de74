import ScopedExpr.Proofs.LexemeBoundary

/-!
# Joined texts

Two texts with a line end between them give the items of the first, without its end, and
then the items of the second, further down by the lines of the first. Nothing else of the
first text reaches the second, unless it leaves a quote or a fence open.
-/

namespace ScopedExpr

/-- An item so many lines further down. -/
def lowered (lines : Nat) : Except LexError Token → Except LexError Token
  | .ok token => .ok { token with line := token.line + lines }
  | .error e => .error { e with line := e.line + lines }

theorem lowered_lexedItem (lines : Nat) (result : Except LexFault TokenKind)
    (lexeme : List Char) (line : Nat) :
    lowered lines (lexedItem result lexeme line) = lexedItem result lexeme (line + lines) := by
  cases result <;> rfl

namespace Scans

variable {line : Nat} {gap text a b : List Char} {items others : List (Except LexError Token)}

theorem items_ne_nil (h : Scans line text items) : items ≠ [] := by
  cases h <;> exact List.cons_ne_nil _ _

/-- A text that begins further down gives the same items further down. -/
theorem lowered (h : Scans line text items) (lines : Nat) :
    Scans (line + lines) text (items.map (ScopedExpr.lowered lines)) := by
  induction h with
  | @nothing line gap blank =>
    have below : line + newlines gap + lines = line + lines + newlines gap :=
      Nat.add_right_comm _ _ _
    rw [List.map_singleton, ScopedExpr.lowered, below]
    exact .nothing blank
  | @item line gap word rest result items blank begins more ih =>
    have below : line + newlines gap + lines = line + lines + newlines gap :=
      Nat.add_right_comm _ _ _
    rw [Nat.add_right_comm, below] at ih
    rw [List.map_cons, lowered_lexedItem, below]
    exact .item blank begins ih

/-- Blanks before a text only move it down. -/
theorem behind_blank (blank : Blank gap) (h : Scans (line + newlines gap) text items) :
    Scans line (gap ++ text) items := by
  cases h with
  | @nothing _ gap' blank' =>
    rw [Nat.add_assoc, ← newlines_append]
    exact .nothing (blank.append blank')
  | @item _ gap' word rest result items blank' begins more =>
    rw [Nat.add_assoc line, ← newlines_append] at more ⊢
    rw [← List.append_assoc]
    exact .item (blank.append blank') begins more

/-- No item of the first text reaches over the line end behind it. -/
theorem append_line (h : Scans line a items) (closed : ∀ item ∈ items, isOpenEnded item = false)
    (more : Scans (line + newlines a + 1) b others) :
    Scans line (a ++ '\n' :: b) (items.dropLast ++ others) := by
  induction h with
  | @nothing line gap blank =>
    have lineEnd : Blank ['\n'] := by decide
    rw [List.append_cons]
    refine behind_blank (blank.append lineEnd) ?_
    rw [newlines_append, ← Nat.add_assoc]
    exact more
  | @item line gap word rest result items blank begins scans ih =>
    have below : line + newlines (gap ++ (word ++ rest)) + 1 =
        line + newlines gap + newlines word + newlines rest + 1 := by
      simp only [newlines_append]
      omega
    rw [below] at more
    have rest' := ih (fun item mem => closed item (List.mem_cons_of_mem _ mem)) more
    have begins' : BeginsWith (word ++ (rest ++ '\n' :: b)) result word := by
      rw [← List.append_assoc]
      exact begins.before_blank rfl (closed _ List.mem_cons_self) fun _ _ _ => rfl
    rw [List.dropLast_cons_of_ne_nil scans.items_ne_nil, List.append_assoc, List.append_assoc]
    exact .item blank begins' rest'

/-- The end comes last, on the line on which the text ends. -/
theorem getLast?_items (h : Scans line text items) :
    items.getLast? = some (.ok ⟨.endOfText, "", line + newlines text⟩) := by
  induction h with
  | nothing blank => rfl
  | @item line gap word rest result items blank begins more ih =>
    rw [List.getLast?_cons, ih]
    simp only [newlines_append, Option.getD_some, Nat.add_assoc]

end Scans

/-- A source that leaves nothing open, a line end and another source give the items of the
first but its end, and then those of the second, its end and its faults too, below all lines
of the first. -/
theorem items_joined (a b : String)
    (closed : ∀ item ∈ textItems a.toList, isOpenEnded item = false) :
    textItems (a ++ "\n" ++ b).toList =
        (textItems a.toList).dropLast ++
          (textItems b.toList).map (lowered (1 + newlines a.toList)) ∧
      (textItems a.toList).getLast? =
        some (.ok ⟨.endOfText, "", 1 + newlines a.toList⟩) := by
  have first := scans_items a.toList 1
  have second := (scans_items b.toList 1).lowered (1 + newlines a.toList)
  have below : 1 + (1 + newlines a.toList) = 1 + newlines a.toList + 1 := Nat.add_comm _ _
  rw [below] at second
  have joined := first.append_line closed second
  have text : (a ++ "\n" ++ b).toList = a.toList ++ '\n' :: b.toList := by simp
  rw [text]
  exact ⟨(items_eq_iff_scans _ _ _).2 joined, first.getLast?_items⟩

/-- A text over two lines and a comment that the line end closes, before a line that begins
with a fault. -/
theorem items_joined_behind_comment :
    (∀ item ∈ textItems "'p\nq' #c".toList, isOpenEnded item = false) ∧
      textItems ("'p\nq' #c" ++ "\n" ++ "é 1.").toList =
        [.ok ⟨.string "p\nq", "'p\nq'", 1⟩, .ok ⟨.comment "c", "#c", 2⟩,
          .error ⟨.unexpected 'é', 3⟩, .ok ⟨.integer 1, "1", 3⟩,
          .ok ⟨.punctuator .dot, ".", 3⟩, .ok ⟨.endOfText, "", 3⟩] := by
  have closed : ∀ item ∈ textItems "'p\nq' #c".toList, isOpenEnded item = false := by
    decide +kernel
  exact ⟨closed, (items_joined "'p\nq' #c" "é 1." closed).1.trans (by decide +kernel)⟩

end ScopedExpr
