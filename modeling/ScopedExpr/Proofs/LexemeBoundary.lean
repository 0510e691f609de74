import ScopedExpr.Proofs.TextGrammar

/-!
# Where lexemes end

What an item is does not hang on the text behind it, as long as that text begins with a
blank or is empty. Three kinds of items need more: a comment up to the end of its line has
to be followed by that end, and a text without its closing quote or a comment without its
closing fence takes everything, so that nothing can follow it.
-/

namespace ScopedExpr

/-- An item that takes everything up to the end of the source: a text without its closing
quote, or a comment whose lexeme is a fence with the content behind it and no other fence. -/
def isOpenEnded : Except LexError Token → Bool
  | .error e => e.fault == .unterminatedText
  | .ok token =>
    match token.kind with
    | .comment content => token.lexeme == "##" ++ content
    | _ => false

/-- A comment that the end of its line closes. -/
def isLineComment (token : Token) : Bool :=
  match token.kind with
  | .comment content => token.lexeme == "#" ++ content
  | _ => false

theorem isBlank_iff {c : Char} :
    isBlank c = true ↔ c = ' ' ∨ c = '\r' ∨ c = '\t' ∨ c = '\n' := by
  simp [isBlank, or_assoc]

instance (text : List Char) : Decidable (Blank text) :=
  List.decidableBAll (fun c => isBlank c = true) text

theorem Blank.append {a b : List Char} (ha : Blank a) (hb : Blank b) : Blank (a ++ b) :=
  List.forall_mem_append.2 ⟨ha, hb⟩

section Words

variable {words : List Char → Prop} {text word behind : List Char} {c : Char}

theorem prefix_of_prefix_append_cons (free : c ∉ word) (front : word <+: text ++ c :: behind) :
    word <+: text := by
  rcases Nat.le_total word.length text.length with short | long
  · exact List.prefix_of_prefix_length_le front (List.prefix_append _ _) short
  · obtain ⟨more, rfl⟩ :=
      List.prefix_of_prefix_length_le (List.prefix_append text (c :: behind)) front long
    have beyond := (List.prefix_append_right_inj text).1 front
    cases more with
    | nil => simp
    | cons d more =>
      obtain ⟨rfl, -⟩ := List.cons_prefix_cons.1 beyond
      exact absurd (List.mem_append_right text List.mem_cons_self) free

theorem LongestPrefix.alone (h : LongestPrefix words text word) :
    LongestPrefix words word word where
  front := List.prefix_rfl
  mem := h.mem
  longest _ front _ := front.length_le

theorem LongestPrefix.before_blank (h : LongestPrefix words text word)
    (solid : ∀ other, words other → ∀ d ∈ other, isBlank d = false) (blank : isBlank c = true) :
    LongestPrefix words (text ++ c :: behind) word where
  front := h.front.trans (List.prefix_append _ _)
  mem := h.mem
  longest other front mem := by
    have free : c ∉ other := by
      intro inside
      rw [solid other mem c inside] at blank
      cases blank
    exact h.longest other (prefix_of_prefix_append_cons free front) mem

end Words

/-- A kind of characters that has none of the blanks. -/
theorem isBlank_eq_false {kind : Char → Bool} {d : Char}
    (blanks : [' ', '\r', '\t', '\n'].all fun b => !kind b) (h : kind d = true) :
    isBlank d = false := by
  rw [← Bool.not_eq_true, isBlank_iff]
  rintro (rfl | rfl | rfl | rfl) <;> simp [h] at blanks

theorem IsName.solid {word : List Char} (h : IsName word) : ∀ d ∈ word, isBlank d = false := by
  obtain ⟨c, after, rfl, letter, all⟩ := h
  have first : isBlank c = false := isBlank_of_beginsLexeme (.inl letter)
  exact List.forall_mem_cons.2 ⟨first, fun d mem => isBlank_eq_false rfl (all d mem)⟩

theorem IsDigits.solid {word : List Char} (h : IsDigits word) :
    ∀ d ∈ word, isBlank d = false := by
  obtain ⟨c, after, rfl, digit, all⟩ := h
  have first : isBlank c = false := isBlank_of_beginsLexeme (.inr (.inl digit))
  exact List.forall_mem_cons.2 ⟨first, fun d mem => isBlank_eq_false rfl (all d mem)⟩

theorem IsNumber.solid {word : List Char} (h : IsNumber word) :
    ∀ d ∈ word, isBlank d = false := by
  rcases h with digits | ⟨whole, fraction, rfl, wholeDigits, fractionDigits⟩
  · exact digits.solid
  · have behind : ∀ d ∈ '.' :: fraction, isBlank d = false :=
      List.forall_mem_cons.2 ⟨rfl, fractionDigits.solid⟩
    exact List.forall_mem_append.2 ⟨wholeDigits.solid, behind⟩

theorem IsMark.solid {word : List Char} (h : IsMark word) : ∀ d ∈ word, isBlank d = false := by
  obtain ⟨p, rfl⟩ := h
  have all : p.spelling.all (fun d => !isBlank d) = true := by cases p <;> decide
  intro d mem
  simpa using List.all_eq_true.1 all d mem

theorem newlines_of_solid {word : List Char} (solid : ∀ d ∈ word, isBlank d = false) :
    newlines word = 0 :=
  List.count_eq_zero.2 fun mem => by cases solid _ mem

/-- A fence that is the first stays the first when the text behind it changes. -/
theorem first_fence_of_first_fence {body rest rest' : List Char}
    (first : ∀ before behind, body ++ '#' :: '#' :: rest = before ++ '#' :: '#' :: behind →
      body.length ≤ before.length) :
    ∀ before behind, body ++ '#' :: '#' :: rest' = before ++ '#' :: '#' :: behind →
      body.length ≤ before.length := by
  intro before behind split
  by_contra less
  have ours : body ++ ['#', '#'] <+: body ++ '#' :: '#' :: rest' := ⟨rest', by simp⟩
  have theirs : before ++ ['#', '#'] <+: body ++ '#' :: '#' :: rest' :=
    ⟨behind, by rw [split]; simp⟩
  have shorter : (before ++ ['#', '#']).length ≤ (body ++ ['#', '#']).length := by
    simp only [List.length_append]
    omega
  -- the other fence would lie in the comment with its own fence, before any text behind it
  obtain ⟨more, inside⟩ := List.prefix_of_prefix_length_le theirs ours shorter
  refine less (first before (more ++ rest) ?_)
  calc body ++ '#' :: '#' :: rest = body ++ ['#', '#'] ++ rest := by simp
    _ = before ++ '#' :: '#' :: (more ++ rest) := by rw [← inside]; simp

section Endings

variable {word : List Char} {kind : TokenKind} {line : Nat}

theorem isLineComment_hash (body : List Char) (line : Nat) :
    isLineComment ⟨.comment (String.ofList body), String.ofList ('#' :: body), line⟩ = true := by
  simp [isLineComment]

theorem isOpenEnded_ok_iff : isOpenEnded (lexedItem (.ok kind) word line) = true ↔
    ∃ body, kind = .comment (String.ofList body) ∧ word = '#' :: '#' :: body := by
  cases kind with
  | comment content =>
    have spelled : String.ofList word = "##" ++ content ↔ word = '#' :: '#' :: content.toList := by
      rw [← String.toList_inj]
      simp
    simp only [isOpenEnded, lexedItem, beq_iff_eq, spelled, TokenKind.comment.injEq]
    constructor
    · intro fence
      exact ⟨content.toList, String.ofList_toList.symm, fence⟩
    · rintro ⟨body, rfl, fence⟩
      rw [String.toList_ofList]
      exact fence
  | _ => simp [isOpenEnded, lexedItem]

end Endings

namespace BeginsWith

variable {text word rest : List Char} {result : Except LexFault TokenKind} {line : Nat}

/-- An item is the same when nothing follows it. -/
theorem alone (h : BeginsWith text result word) : BeginsWith word result word := by
  cases h with
  | name front reads => exact .name front.alone reads
  | number front reads => exact .number front.alone reads
  | mark front => exact .mark front.alone
  | quoted quote split free => exact .quoted quote rfl free
  | unterminated quote split free => exact .unterminated quote split free
  | line split single free stop =>
    exact .line (List.append_nil _).symm single free (.inl rfl)
  | fenced split first =>
    exact .fenced rfl (first_fence_of_first_fence first)
  | unfenced split free => exact .unfenced split free
  | strange split nothing notBlank => exact .strange rfl nothing notBlank

/-- An item is the same when more text follows behind a blank. -/
theorem before_blank (h : BeginsWith text result word) {c : Char} {behind : List Char}
    (blank : isBlank c = true) (closed : isOpenEnded (lexedItem result word line) = false)
    (lineEnd : ∀ kind, result = .ok kind →
      isLineComment ⟨kind, String.ofList word, line⟩ = true → c = '\n') :
    BeginsWith (text ++ c :: behind) result word := by
  cases h with
  | name front reads => exact .name (front.before_blank (fun _ => IsName.solid) blank) reads
  | number front reads => exact .number (front.before_blank (fun _ => IsNumber.solid) blank) reads
  | mark front => exact .mark (front.before_blank (fun _ => IsMark.solid) blank)
  | quoted quote split free => exact .quoted quote (by rw [split]; simp; rfl) free
  | unterminated _ _ _ => cases closed
  | @line body rest split single free stop =>
    have follows : (rest ++ c :: behind).head? = some '\n' := by
      rcases stop with rfl | head
      · rw [lineEnd _ rfl (isLineComment_hash body line)]
        rfl
      · rw [List.head?_append, head]
        rfl
    have split' : text ++ c :: behind = '#' :: body ++ (rest ++ c :: behind) := by
      rw [split, List.append_assoc]
    exact .line split' single free (.inr follows)
  | fenced split first =>
    exact .fenced (by rw [split]; simp; rfl) (first_fence_of_first_fence first)
  | @unfenced body split _ =>
    rw [Bool.eq_false_iff] at closed
    exact absurd (isOpenEnded_ok_iff.2 ⟨body, rfl, split⟩) closed
  | strange split nothing notBlank => exact .strange (by rw [split]; rfl) nothing notBlank

/-- Nothing is left behind an item that is left open. -/
theorem rest_of_openEnded (h : BeginsWith (word ++ rest) result word)
    (isOpen : isOpenEnded (lexedItem result word line) = true) : rest = [] := by
  generalize whole : word ++ rest = text at h
  cases h with
  | name _ reads => cases reads <;> cases isOpen
  | number _ reads => cases reads <;> cases isOpen
  | mark _ | quoted _ _ _ | strange _ _ _ => cases isOpen
  | unterminated _ _ _ | unfenced _ _ => exact List.append_right_eq_self.1 whole
  -- the lexeme of a closed comment is not a fence with the content behind it
  | line _ _ _ _ | fenced _ _ =>
    obtain ⟨body, is, spelled⟩ := isOpenEnded_ok_iff.1 isOpen
    have length := congrArg List.length spelled
    rw [TokenKind.comment.injEq, String.ofList_inj] at is
    simp [is] at length

end BeginsWith

end ScopedExpr
