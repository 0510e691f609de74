import ScopedExpr.Proofs.ExpressionRecognition
import ScopedExpr.Proofs.TokenLayout
import ScopedExpr.TextEvaluation

/-!
# Equality of tokens that were scanned

Tokens are compared without what they stand for. Nothing is lost by that between tokens that
were scanned: a lexeme stands for one thing only, whatever follows it and wherever it stands.
Lists of scanned tokens that are the same are therefore one list, and one program. No number
that is scanned is a NaN, so the tree that is read from them is also the same as itself.
-/

namespace ScopedExpr

namespace BeginsWith

variable {text text' word : List Char} {result result' : Except LexFault TokenKind} {x : Binary64}

/-- A lexeme is one item only, whatever text it begins. -/
theorem unique (h : BeginsWith text result word) (h' : BeginsWith text' result' word) :
    result = result' := by
  obtain ⟨c, after, rfl, -⟩ := h.alone.cons
  exact h.alone.munch_eq.1.symm.trans h'.alone.munch_eq.1

/-- A scanned number is the nearest one to a fraction, which is never a NaN. -/
theorem float_ne_nan (h : BeginsWith text (.ok (.float x)) word) : x ≠ .nan := by
  cases h with
  | name _ reads => cases reads
  | number _ reads =>
    cases reads
    unfold Decimal.toBinary64 Binary64.nearest
    simp only
    split <;> exact nofun

end BeginsWith

/-- The kind of a token is told by its lexeme: it is the end, or its lexeme is read as a
token of this kind. -/
def Token.ToldByLexeme (t : Token) : Prop :=
  (t.kind = .endOfText ∧ t.lexeme = "") ∨
    BeginsWith t.lexeme.toList (.ok t.kind) t.lexeme.toList

theorem Scans.toldByLexeme {line : Nat} {text : List Char} {items : List (Except LexError Token)}
    {t : Token} (h : Scans line text items) (mem : .ok t ∈ items) : t.ToldByLexeme := by
  induction h with
  | nothing _ =>
    cases List.mem_singleton.1 mem
    exact .inl ⟨rfl, rfl⟩
  | item _ begins _ ih =>
    rcases List.mem_cons.1 mem with here | later
    · obtain ⟨rfl, rfl, -⟩ := lexedItem_eq_ok_iff.1 here.symm
      exact .inr begins.alone
    · exact ih later

namespace Token

variable {t u : Token} {ts us : List Token}

theorem toldByLexeme_of_mem_textItems {text : List Char} (mem : .ok t ∈ textItems text) :
    t.ToldByLexeme :=
  (scans_items text 1).toldByLexeme mem

theorem ToldByLexeme.kind_eq (ht : t.ToldByLexeme) (hu : u.ToldByLexeme)
    (lexemes : t.lexeme = u.lexeme) : t.kind = u.kind := by
  rcases ht with ⟨isEnd, nothing⟩ | reads
  · rcases hu with ⟨isEnd', -⟩ | reads
    · exact isEnd.trans isEnd'.symm
    · exact absurd (by rw [← lexemes, nothing]; rfl) reads.word_ne_nil
  · rcases hu with ⟨-, nothing⟩ | reads'
    · exact absurd (by rw [lexemes, nothing]; rfl) reads.word_ne_nil
    · rw [← lexemes] at reads'
      exact Except.ok.inj (reads.unique reads')

theorem ToldByLexeme.kind_ne_nan (h : t.ToldByLexeme) : t.kind ≠ .float .nan := by
  rcases h with ⟨isEnd, -⟩ | reads
  · rw [isEnd]
    exact nofun
  · intro isNan
    rw [isNan] at reads
    exact reads.float_ne_nan rfl

theorem same_iff : t.same u = true ↔
    t.kind.same u.kind = true ∧ t.lexeme = u.lexeme ∧ t.line = u.line := by
  simp [same, and_assoc]

/-- Tokens that were scanned are the same only if they are equal. -/
theorem ToldByLexeme.eq_of_same (ht : t.ToldByLexeme) (hu : u.ToldByLexeme)
    (h : t.same u = true) : t = u := by
  obtain ⟨-, lexemes, lines⟩ := same_iff.1 h
  obtain ⟨kind, lexeme, line⟩ := t
  obtain rfl : kind = u.kind := ht.kind_eq hu lexemes
  obtain rfl : lexeme = u.lexeme := lexemes
  obtain rfl : line = u.line := lines
  rfl

-- Tokens of no text are not told by their lexemes.
example : (⟨.integer 1, "1", 1⟩ : Token).same ⟨.integer 2, "1", 1⟩ = true := by decide

theorem eq_of_sameList (hts : ∀ t ∈ ts, t.ToldByLexeme) (hus : ∀ u ∈ us, u.ToldByLexeme)
    (h : sameList ts us = true) : ts = us := by
  induction ts generalizing us with
  | nil =>
    cases us with
    | nil => rfl
    | cons => cases h
  | cons t ts ih =>
    cases us with
    | nil => cases h
    | cons u us =>
      rw [List.forall_mem_cons] at hts hus
      obtain ⟨first, rest⟩ := Bool.and_eq_true_iff.1 h
      rw [hts.1.eq_of_same hus.1 first, ih hts.2 hus.2 rest]

end Token

theorem Binary64.numEq_self {x : Binary64} (h : x ≠ .nan) : x.numEq x = true := by
  cases x with
  | nan => exact absurd rfl h
  | infinite negative => exact beq_self_eq_true (Binary64.signed negative (twoPow 2098))
  | finite negative m => exact beq_self_eq_true (Binary64.signed negative m.units)

theorem Value.strictEq_self {v : Value} (h : v ≠ .float .nan) : v.strictEq v = true := by
  cases v with
  | none => rfl
  | bool b => exact beq_self_eq_true b
  | integer n => exact beq_self_eq_true n
  | float x => exact Binary64.numEq_self fun isNan => h (by rw [isNan])
  | text s => exact beq_self_eq_true s

namespace Expr

theorem Spells.same_self {e : Expr} {ts : List Token} (h : e.Spells ts)
    (numbers : ∀ t ∈ ts, t.kind ≠ .float .nan) : e.same e = true := by
  induction h with
  | @literal v t kind =>
    refine Value.strictEq_self ?_
    rintro rfl
    exact numbers t (List.mem_singleton_self t) kind
  | reference => simp [same]
  | grouping _ _ _ ih => exact ih fun t mem => numbers t (by simp [mem])
  | assign _ _ ih => simp [same, ih fun t mem => numbers t (by simp [mem])]
  | get _ _ ih => simp [same, ih fun t mem => numbers t (by simp [mem])]
  | unary _ ih => simp [same, ih fun t mem => numbers t (by simp [mem])]
  | set _ _ _ _ ihObject ihValue | binary _ _ ihObject ihValue | logical _ _ ihObject ihValue =>
    simp [same, ihObject fun t mem => numbers t (by simp [mem]),
      ihValue fun t mem => numbers t (by simp [mem])]

theorem same_self_of_tokensOf {text : String} {tokens : List Token} {e : Expr}
    (scanned : tokensOf text = .ok tokens) (read : Expr.ofTokens tokens = .ok e) :
    e.same e = true := by
  refine (readable_of_ofTokens read).2.spelled.same_self fun t mem => ?_
  have among := (TokenReader.rest_ofTokens_sublist tokens).subset mem
  exact (Token.toldByLexeme_of_mem_textItems
    (mem_textItems_of_tokensOf scanned among)).kind_ne_nan

end Expr

/-- Tokens of two texts that are the same stand for the same. Where all tokens of two texts
are the same, one tree, that is the same as itself with all numbers and literals, or one
fault is read from both, and both have the same value, as programs and in every session. -/
theorem programs_of_same_tokens (a b : String) :
    (∀ t u, .ok t ∈ textItems a.toList → .ok u ∈ textItems b.toList → t.same u = true →
      t.kind = u.kind) ∧
    ∀ ts us, tokensOf a = .ok ts → tokensOf b = .ok us → Token.sameList ts us = true →
      ((∃ e f, Expr.ofTokens ts = .ok e ∧ Expr.ofTokens us = .ok f ∧ e = f ∧ e.same f = true) ∨
        ∃ err, Expr.ofTokens ts = .error err ∧ Expr.ofTokens us = .error err) ∧
      evaluateText a = evaluateText b ∧
      ∀ s : Session, s.evaluateText a = s.evaluateText b := by
  constructor
  · intro t u inA inB same
    rw [(Token.toldByLexeme_of_mem_textItems inA).eq_of_same
      (Token.toldByLexeme_of_mem_textItems inB) same]
  · intro ts us scannedA scannedB same
    have told {text : String} {tokens : List Token} (scanned : tokensOf text = .ok tokens) :
        ∀ t ∈ tokens, t.ToldByLexeme := fun t mem =>
      Token.toldByLexeme_of_mem_textItems (mem_textItems_of_tokensOf scanned mem)
    obtain rfl := Token.eq_of_sameList (told scannedA) (told scannedB) same
    have trees : Expr.ofText a = Expr.ofText b := by
      rw [Expr.ofText_of_tokens scannedA, Expr.ofText_of_tokens scannedB]
    refine ⟨?_, ?_, ?_⟩
    · cases read : Expr.ofTokens ts with
      | ok e => exact .inl ⟨e, e, rfl, rfl, rfl, Expr.same_self_of_tokensOf scannedA read⟩
      | error err => exact .inr ⟨err, rfl, rfl⟩
    · rw [evaluateText, evaluateText, trees]
    · intro s
      rw [Session.evaluateText, Session.evaluateText, trees]

/-- Texts in both quotes, a number with a separator, one with a point, and comments with
and without fences. -/
def quotedAndNumbers : List Token :=
  [⟨.string "b", "'b'", 1⟩, ⟨.punctuator .equalEqual, "==", 1⟩, ⟨.string "c", "\"c\"", 1⟩,
    ⟨.keyword .orWord, "or", 1⟩, ⟨.integer 10, "1_0", 1⟩, ⟨.punctuator .less, "<", 1⟩,
    ⟨.float (.ofBits 4612811918334230528), "2.50", 1⟩, ⟨.comment "d", "##d##", 1⟩,
    ⟨.comment "e", "#e", 1⟩, ⟨.endOfText, "", 2⟩]

def tightText : String := "'b'==\"c\"or 1_0<2.50##d###e\n"

def looseText : String := " 'b' == \"c\" or\t1_0 < 2.50 ##d## #e\n\t"

theorem programs_of_quotedAndNumbers :
    tokensOf tightText = .ok quotedAndNumbers ∧ tokensOf looseText = .ok quotedAndNumbers ∧
      Token.sameList quotedAndNumbers quotedAndNumbers = true ∧
      (∀ t ∈ quotedAndNumbers, ∀ u ∈ quotedAndNumbers, t.same u = true → t.kind = u.kind) ∧
      evaluateText tightText = evaluateText looseText := by
  have tight : tokensOf tightText = .ok quotedAndNumbers := by decide +kernel
  have loose : tokensOf looseText = .ok quotedAndNumbers := by decide +kernel
  have same : Token.sameList quotedAndNumbers quotedAndNumbers = true := by decide +kernel
  obtain ⟨kinds, programs⟩ := programs_of_same_tokens tightText looseText
  refine ⟨tight, loose, same, fun t inTight u inLoose => ?_, (programs _ _ tight loose same).2.1⟩
  exact kinds t u (mem_textItems_of_tokensOf tight inTight)
    (mem_textItems_of_tokensOf loose inLoose)

end ScopedExpr
