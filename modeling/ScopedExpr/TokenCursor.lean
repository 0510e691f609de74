import ScopedExpr.LexemeRecognition

/-!
# Cursors over a text

A cursor stands in a text and counts lines. Advancing it skips blanks and cuts off one
lexeme; behind the last lexeme it gives the end of the text once and nothing more. A
fault does not stop the cursor: it goes on behind the faulty lexeme.
-/

namespace ScopedExpr

/-- A fault with the line of the first character of its lexeme. -/
structure LexError where
  fault : LexFault
  line : Nat
deriving DecidableEq

inductive Cursor where
  /-- Before the text that is left. -/
  | reading (rest : List Char) (line : Nat)
  /-- Behind the end of the text. -/
  | finished (line : Nat)

def newlines (text : List Char) : Nat := text.count '\n'

@[simp] theorem newlines_nil : newlines [] = 0 := rfl

@[simp] theorem newlines_append (a b : List Char) :
    newlines (a ++ b) = newlines a + newlines b := List.count_append

namespace Cursor

def start (text : List Char) : Cursor := reading text 1

def line : Cursor → Nat
  | reading _ line => line
  | finished line => line

def next? : Cursor → Option (Except LexError Token × Cursor)
  | finished _ => none
  | reading text line =>
    let first := line + newlines (text.takeWhile isBlank)
    match text.dropWhile isBlank with
    | [] => some (.ok ⟨.endOfText, "", first⟩, finished first)
    | c :: after =>
      let lexeme := munch c after
      let item :=
        match lexeme.result with
        | .ok kind => .ok ⟨kind, String.ofList lexeme.text, first⟩
        | .error fault => .error ⟨fault, first⟩
      some (item, reading lexeme.rest (first + newlines lexeme.text))

/-- A bound on the number of items that are left. -/
def size : Cursor → Nat
  | reading text _ => text.length + 1
  | finished _ => 0

private theorem length_dropBlank_le (text : List Char) :
    (text.dropWhile isBlank).length ≤ text.length :=
  (List.dropWhile_suffix isBlank).length_le

theorem size_lt_of_next? {c d : Cursor} {item : Except LexError Token}
    (h : c.next? = some (item, d)) : d.size < c.size := by
  unfold next? at h
  split at h
  · cases h
  · next text line =>
    have bound := length_dropBlank_le text
    simp only at h
    split at h
    · cases h
      simp [size]
    · next first after drop =>
      have rest := length_munch_rest_le first after
      rw [drop] at bound
      cases h
      simp only [size, List.length_cons] at bound ⊢
      omega

/-- All items from a place on, each with the place behind it. -/
def trace (c : Cursor) : List (Except LexError Token × Cursor) :=
  match _h : c.next? with
  | none => []
  | some (item, d) => (item, d) :: trace d
termination_by c.size
decreasing_by exact size_lt_of_next? _h

def items (c : Cursor) : List (Except LexError Token) := c.trace.map Prod.fst

def last (c : Cursor) : Cursor := (c.trace.getLast?.map Prod.snd).getD c

theorem trace_of_none {c : Cursor} (h : c.next? = none) : c.trace = [] := by
  rw [trace]
  split <;> simp_all

theorem trace_of_some {c d : Cursor} {item : Except LexError Token}
    (h : c.next? = some (item, d)) : c.trace = (item, d) :: d.trace := by
  rw [trace]
  split <;> simp_all

@[simp] theorem trace_finished (line : Nat) : (finished line).trace = [] := trace_of_none rfl

/-- There are at most as many items as characters, and the end. -/
theorem length_trace_le (c : Cursor) : c.trace.length ≤ c.size := by
  fun_induction trace c with
  | case1 => simp
  | case2 c item d h ih =>
    have step := size_lt_of_next? h
    simp only [List.length_cons]
    omega

end Cursor

def textItems (text : List Char) : List (Except LexError Token) := (Cursor.start text).items

def collectTokens : List (Except LexError Token) → Except LexError (List Token)
  | [] => .ok []
  | .ok token :: rest => (token :: ·) <$> collectTokens rest
  | .error e :: _ => .error e

def tokensOf (text : String) : Except LexError (List Token) := collectTokens (textItems text.toList)

@[simp] theorem collectTokens_ok (tokens : List Token) :
    collectTokens (tokens.map .ok) = .ok tokens := by
  induction tokens with
  | nil => rfl
  | cons t ts ih => simp [collectTokens, ih, Functor.map, Except.map]

end ScopedExpr
