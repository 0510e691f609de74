import ScopedExpr.BracketedForm
import ScopedExpr.Proofs.DisplayedLiterals
import ScopedExpr.Proofs.LocalReading
import ScopedExpr.Proofs.ReferenceNumbering

/-!
# Trees told by their bracketed forms

In the bracketed form of a tree that was read from a text, every name, operator and literal is
a word without blanks, and a name or a literal also without brackets, so each part of a node
ends where its word or its own brackets end. By induction on the tree, what is written tells
the tree from the texts that may follow it, but for the numbers of references and the lines of
tokens, which are not written.
-/

namespace ScopedExpr

def Token.unlined (t : Token) : Token := { t with line := 0 }

namespace Expr

def unlined : Expr → Expr
  | literal v => literal v
  | grouping e => grouping e.unlined
  | reference id name => reference id name.unlined
  | assign id name v => assign id name.unlined v.unlined
  | get o name => get o.unlined name.unlined
  | set o name v => set o.unlined name.unlined v.unlined
  | unary operator e => unary operator.unlined e.unlined
  | binary l operator r => binary l.unlined operator.unlined r.unlined
  | logical l operator r => logical l.unlined operator.unlined r.unlined

/-- The tree as far as it is written: neither the numbers of its references nor the lines of
its tokens are. -/
def written (e : Expr) : Expr := (e.mapIds fun _ => 0).unlined

def TextFree : Expr → Prop
  | literal v => ∀ content, v ≠ .text content
  | grouping e => e.TextFree
  | reference _ _ => True
  | assign _ _ v => v.TextFree
  | get o _ => o.TextFree
  | set o _ v => o.TextFree ∧ v.TextFree
  | unary _ e => e.TextFree
  | binary l _ r | logical l _ r => l.TextFree ∧ r.TextFree

structure IsNameToken (t : Token) : Prop where
  kind : t.kind = .identifier
  told : t.ToldByLexeme

structure IsOperatorToken (t : Token) : Prop where
  kind : (∃ mark, t.kind = .punctuator mark) ∨ ∃ word, t.kind = .keyword word
  told : t.ToldByLexeme

def Legible : Expr → Prop
  | literal v => v.IsUnquoted
  | grouping e => e.Legible
  | reference _ name => IsNameToken name
  | assign _ name v => IsNameToken name ∧ v.Legible
  | get o name => o.Legible ∧ IsNameToken name
  | set o name v => o.Legible ∧ IsNameToken name ∧ v.Legible
  | unary operator e => IsOperatorToken operator ∧ e.Legible
  | binary l operator r | logical l operator r =>
    IsOperatorToken operator ∧ l.Legible ∧ r.Legible

variable {e f : Expr} {ts : List Token}

theorem isOperatorToken_of_precedence? {t : Token} {p : Nat} (told : t.ToldByLexeme)
    (is : t.kind.precedence? = some p) : IsOperatorToken t := by
  refine ⟨?_, told⟩
  unfold TokenKind.precedence? at is
  split at is <;> simp_all

/-- What was read from the tokens of a text is legible. -/
theorem legible_of_spells (h : e.Spells ts) (wf : e.WellFormed) (textFree : e.TextFree)
    (told : ∀ t ∈ ts, t.ToldByLexeme) : e.Legible := by
  induction h with
  | literal kind => exact Value.isUnquoted_of_told kind (told _ List.mem_cons_self) textFree
  | grouping _ _ _ ih => exact ih wf textFree fun t mem => told t (by simp [mem])
  | reference => exact ⟨wf, told _ List.mem_cons_self⟩
  | assign _ _ ih =>
    exact ⟨⟨wf.1, told _ List.mem_cons_self⟩, ih wf.2 textFree fun t mem => told t (by simp [mem])⟩
  | get _ _ ih =>
    exact ⟨ih wf.2.1 textFree fun t mem => told t (by simp [mem]), wf.2.2, told _ (by simp)⟩
  | set _ _ _ _ iho ihv =>
    exact ⟨iho wf.2.1 textFree.1 fun t mem => told t (by simp [mem]),
      ⟨wf.2.2.1, told _ (by simp)⟩, ihv wf.2.2.2 textFree.2 fun t mem => told t (by simp [mem])⟩
  | unary _ ih =>
    refine ⟨⟨?_, told _ List.mem_cons_self⟩, ih wf.2.2 textFree fun t mem => told t (by simp [mem])⟩
    rcases wf.1 with is | is | is <;> simp [is]
  | binary _ _ ihl ihr | logical _ _ ihl ihr =>
    obtain ⟨p, is, -, -, -, left, right⟩ := wf
    exact ⟨isOperatorToken_of_precedence? (told _ (by simp)) is,
      ihl left textFree.1 fun t mem => told t (by simp [mem]),
      ihr right textFree.2 fun t mem => told t (by simp [mem])⟩

section Words

variable {t u : Token} {c : Char}

theorem IsNameToken.notMem (h : IsNameToken t) (other : isWordChar c = false) :
    c ∉ t.lexeme.toList := by
  have isWord : t.kind.isWord = true := by rw [h.kind]; rfl
  exact (h.told.begins (by rw [h.kind]; nofun)).notMem_of_isWord isWord other

theorem IsOperatorToken.blank_notMem (h : IsOperatorToken t) : ' ' ∉ t.lexeme.toList := by
  obtain ⟨⟨mark, is⟩ | ⟨word, is⟩, told⟩ := h
  · have begins := told.begins (by rw [is]; nofun)
    rw [is] at begins
    exact begins.blank_notMem_of_mark
  · have isWord : t.kind.isWord = true := by rw [is]; rfl
    exact (told.begins (by rw [is]; nofun)).notMem_of_isWord isWord rfl

theorem unlined_eq_of_lexeme_eq (ht : t.ToldByLexeme) (hu : u.ToldByLexeme)
    (same : t.lexeme.toList = u.lexeme.toList) : t.unlined = u.unlined := by
  have lexemes : t.lexeme = u.lexeme := String.toList_inj.1 same
  rw [Token.unlined, Token.unlined, ht.kind_eq hu lexemes, lexemes]

end Words

def nodeWord : Expr → String
  | literal _ => "Literal"
  | grouping _ => "Group"
  | reference _ _ => "Variable"
  | assign _ _ _ => "Assign"
  | get _ _ => "Get"
  | set _ _ _ => "Set"
  | unary _ _ => "Unary"
  | binary _ _ _ => "Binary"
  | logical _ _ _ => "Logical"

/-- The roots of two trees are nodes of one sort. -/
inductive SameNode : Expr → Expr → Prop where
  | literal v w : SameNode (literal v) (literal w)
  | grouping e f : SameNode (grouping e) (grouping f)
  | reference id name id' name' : SameNode (reference id name) (reference id' name')
  | assign id name v id' name' w : SameNode (assign id name v) (assign id' name' w)
  | get o name p name' : SameNode (get o name) (get p name')
  | set o name v p name' w : SameNode (set o name v) (set p name' w)
  | unary operator e operator' f : SameNode (unary operator e) (unary operator' f)
  | binary l operator r l' operator' r' : SameNode (binary l operator r) (binary l' operator' r')
  | logical l operator r l' operator' r' :
      SameNode (logical l operator r) (logical l' operator' r')

theorem sameNode_of_nodeWord_eq (h : e.nodeWord = f.nodeWord) : SameNode e f := by
  cases e <;> cases f <;> first | constructor | simp [nodeWord] at h

theorem nodeWord_written (e : Expr) : e.written.nodeWord = e.nodeWord := by
  cases e <;> rfl

theorem sameNode_of_written_eq (same : e.written = f.written) : SameNode e f :=
  sameNode_of_nodeWord_eq (by rw [← nodeWord_written, same, nodeWord_written])

/-- What is written behind the word of a node, with a text that follows the node. -/
def behindWord : Expr → List Char → List Char
  | literal v, rest => v.display.toList ++ ')' :: rest
  | grouping e, rest => e.toBracketed.toList ++ ')' :: rest
  | reference _ name, rest => name.lexeme.toList ++ ')' :: rest
  | assign _ name v, rest => name.lexeme.toList ++ ' ' :: (v.toBracketed.toList ++ ')' :: rest)
  | get o name, rest => o.toBracketed.toList ++ ' ' :: (name.lexeme.toList ++ ')' :: rest)
  | set o name v, rest =>
    o.toBracketed.toList ++ ' ' ::
      (name.lexeme.toList ++ ' ' :: (v.toBracketed.toList ++ ')' :: rest))
  | unary operator e, rest =>
    operator.lexeme.toList ++ ' ' :: (e.toBracketed.toList ++ ')' :: rest)
  | binary l operator r, rest | logical l operator r, rest =>
    operator.lexeme.toList ++ ' ' ::
      (l.toBracketed.toList ++ ' ' :: (r.toBracketed.toList ++ ')' :: rest))

theorem toBracketed_append (e : Expr) (rest : List Char) :
    e.toBracketed.toList ++ rest = '(' :: (e.nodeWord.toList ++ ' ' :: e.behindWord rest) := by
  cases e <;> simp [toBracketed, nodeWord, behindWord]

/-- A word ends before the first character that it does not have. -/
theorem word_unique {stop : Char} {a b x y : List Char} (ha : stop ∉ a) (hb : stop ∉ b)
    (h : a ++ stop :: x = b ++ stop :: y) : a = b ∧ x = y := by
  obtain ⟨more, rfl, behind⟩ | ⟨more, rfl, behind⟩ := List.append_eq_append_iff.1 h
  all_goals
    cases more with
    | nil => simp_all
    | cons c more => simp_all

theorem node_unique {x y : List Char}
    (h : e.toBracketed.toList ++ x = f.toBracketed.toList ++ y) :
    SameNode e f ∧ e.behindWord x = f.behindWord y := by
  have blank_notMem (e : Expr) : ' ' ∉ e.nodeWord.toList := by cases e <;> simp [nodeWord]
  rw [toBracketed_append, toBracketed_append] at h
  obtain ⟨words, behind⟩ := word_unique (blank_notMem e) (blank_notMem f) (List.cons.inj h).2
  exact ⟨sameNode_of_nodeWord_eq (String.toList_inj.1 words), behind⟩

theorem name_unique {t u : Token} {stop : Char} {x y : List Char} (ht : IsNameToken t)
    (hu : IsNameToken u) (other : isWordChar stop = false)
    (h : t.lexeme.toList ++ stop :: x = u.lexeme.toList ++ stop :: y) :
    t.unlined = u.unlined ∧ x = y := by
  obtain ⟨lexemes, rest⟩ := word_unique (ht.notMem other) (hu.notMem other) h
  exact ⟨unlined_eq_of_lexeme_eq ht.told hu.told lexemes, rest⟩

theorem operator_unique {t u : Token} {x y : List Char} (ht : IsOperatorToken t)
    (hu : IsOperatorToken u) (h : t.lexeme.toList ++ ' ' :: x = u.lexeme.toList ++ ' ' :: y) :
    t.unlined = u.unlined ∧ x = y := by
  obtain ⟨lexemes, rest⟩ := word_unique ht.blank_notMem hu.blank_notMem h
  exact ⟨unlined_eq_of_lexeme_eq ht.told hu.told lexemes, rest⟩

theorem literal_unique {v w : Value} {x y : List Char} (hv : v.IsUnquoted) (hw : w.IsUnquoted)
    (h : v.display.toList ++ ')' :: x = w.display.toList ++ ')' :: y) : v = w ∧ x = y := by
  have closed {v : Value} (hv : v.IsUnquoted) : ')' ∉ v.display.toList :=
    (Value.begins_display hv).notMem_of_isWord (Value.isWord_shownKind hv) rfl
  obtain ⟨shown, rest⟩ := word_unique (closed hv) (closed hw) h
  exact ⟨Value.eq_of_display_eq hv hw (String.toList_inj.1 shown), rest⟩

/-- Where their bracketed forms begin one text, two trees are equal as far as they are written,
and the same text follows them. -/
def Unique (e f : Expr) : Prop :=
  ∀ x y, e.toBracketed.toList ++ x = f.toBracketed.toList ++ y → e.written = f.written ∧ x = y

theorem operands_unique {t u : Token} {l r l' r' : Expr} {x y : List Char} (ht : IsOperatorToken t)
    (hu : IsOperatorToken u) (left : Unique l l') (right : Unique r r')
    (h : t.lexeme.toList ++ ' ' :: (l.toBracketed.toList ++ ' ' :: (r.toBracketed.toList ++ x)) =
      u.lexeme.toList ++ ' ' :: (l'.toBracketed.toList ++ ' ' :: (r'.toBracketed.toList ++ y))) :
    t.unlined = u.unlined ∧ l.written = l'.written ∧ r.written = r'.written ∧ x = y := by
  obtain ⟨operators, behind⟩ := operator_unique ht hu h
  obtain ⟨lefts, behind⟩ := left _ _ behind
  obtain ⟨rights, rest⟩ := right _ _ (List.cons.inj behind).2
  exact ⟨operators, lefts, rights, rest⟩

/-- Legible trees are told by their bracketed forms as far as they are written. -/
theorem unique_of_legible (he : e.Legible) (hf : f.Legible) : Unique e f := by
  intro x y h
  -- the word of a node tells its sort, then its parts are told one behind the other
  induction e generalizing f x y with
  | literal =>
    obtain ⟨⟨⟩, behind⟩ := node_unique h
    obtain ⟨rfl, rest⟩ := literal_unique he hf behind
    exact ⟨rfl, rest⟩
  | grouping e ih =>
    obtain ⟨node, behind⟩ := node_unique h
    cases node with
    | grouping _ f =>
      obtain ⟨inner, rest⟩ := ih he (f := f) hf _ _ behind
      exact ⟨congrArg grouping inner, (List.cons.inj rest).2⟩
  | reference =>
    obtain ⟨⟨⟩, behind⟩ := node_unique h
    obtain ⟨names, rest⟩ := name_unique he hf rfl behind
    exact ⟨congrArg (reference 0) names, rest⟩
  | assign _ _ _ ih =>
    obtain ⟨⟨⟩, behind⟩ := node_unique h
    obtain ⟨names, behind⟩ := name_unique he.1 hf.1 rfl behind
    obtain ⟨values, rest⟩ := ih he.2 hf.2 _ _ behind
    exact ⟨congrArg₂ (assign 0) names values, (List.cons.inj rest).2⟩
  | get _ _ ih =>
    obtain ⟨⟨⟩, behind⟩ := node_unique h
    obtain ⟨objects, behind⟩ := ih he.1 hf.1 _ _ behind
    obtain ⟨names, rest⟩ := name_unique he.2 hf.2 rfl (List.cons.inj behind).2
    exact ⟨congrArg₂ get objects names, rest⟩
  | set o name v iho ihv =>
    obtain ⟨⟨⟩, behind⟩ := node_unique h
    obtain ⟨objects, behind⟩ := iho he.1 hf.1 _ _ behind
    obtain ⟨names, behind⟩ := name_unique he.2.1 hf.2.1 rfl (List.cons.inj behind).2
    obtain ⟨values, rest⟩ := ihv he.2.2 hf.2.2 _ _ behind
    refine ⟨?_, (List.cons.inj rest).2⟩
    change set o.written name.unlined v.written = _
    rw [objects, names, values]
    rfl
  | unary _ _ ih =>
    obtain ⟨⟨⟩, behind⟩ := node_unique h
    obtain ⟨operators, behind⟩ := operator_unique he.1 hf.1 behind
    obtain ⟨operands, rest⟩ := ih he.2 hf.2 _ _ behind
    exact ⟨congrArg₂ unary operators operands, (List.cons.inj rest).2⟩
  | binary l operator r ihl ihr =>
    obtain ⟨⟨⟩, behind⟩ := node_unique h
    obtain ⟨operators, lefts, rights, rest⟩ :=
      operands_unique he.1 hf.1 (ihl he.2.1 hf.2.1) (ihr he.2.2 hf.2.2) behind
    refine ⟨?_, (List.cons.inj rest).2⟩
    change binary l.written operator.unlined r.written = _
    rw [lefts, operators, rights]
    rfl
  | logical l operator r ihl ihr =>
    obtain ⟨⟨⟩, behind⟩ := node_unique h
    obtain ⟨operators, lefts, rights, rest⟩ :=
      operands_unique he.1 hf.1 (ihl he.2.1 hf.2.1) (ihr he.2.2 hf.2.2) behind
    refine ⟨?_, (List.cons.inj rest).2⟩
    change logical l.written operator.unlined r.written = _
    rw [lefts, operators, rights]
    rfl

theorem length_references_written (e : Expr) :
    e.written.references.length = e.references.length := by
  induction e <;> simp_all [written, mapIds, unlined, references]

theorem split_referenceIds {l l' r r' : Expr} (he : e.references = l.references ++ r.references)
    (hf : f.references = l'.references ++ r'.references) (left : l.written = l'.written)
    (ids : e.referenceIds = f.referenceIds) :
    l.referenceIds = l'.referenceIds ∧ r.referenceIds = r'.referenceIds := by
  rw [referenceIds, referenceIds, he, hf, List.map_append, List.map_append] at ids
  refine List.append_inj ids ?_
  rw [referenceIds, referenceIds, List.length_map, List.length_map, ← length_references_written,
    left, length_references_written]

/-- The numbers of the references are all that is missing for the tree without lines. -/
theorem unlined_eq_of_written_eq (same : e.written = f.written)
    (ids : e.referenceIds = f.referenceIds) : e.unlined = f.unlined := by
  induction e generalizing f with
  | literal =>
    obtain ⟨⟩ := sameNode_of_written_eq same
    exact same
  | reference =>
    obtain ⟨⟩ := sameNode_of_written_eq same
    injection same with _ names
    exact congrArg₂ reference (List.cons.inj ids).1 names
  | grouping e ih =>
    obtain ⟨⟩ := sameNode_of_written_eq same
    injection same with inner
    exact congrArg grouping (ih inner ids)
  | assign id name v ih =>
    cases sameNode_of_written_eq same with
    | assign _ _ _ id' name' w =>
      injection same with _ names values
      obtain ⟨target, idsV⟩ : id = id' ∧ v.referenceIds = w.referenceIds := List.cons.inj ids
      rw [unlined, unlined, target, names, ih values idsV]
  | get _ _ ih =>
    obtain ⟨⟩ := sameNode_of_written_eq same
    injection same with objects names
    exact congrArg₂ get (ih objects ids) names
  | unary _ _ ih =>
    obtain ⟨⟩ := sameNode_of_written_eq same
    injection same with operators operands
    exact congrArg₂ unary operators (ih operands ids)
  | set _ _ _ iho ihv =>
    obtain ⟨⟩ := sameNode_of_written_eq same
    injection same with objects names values
    obtain ⟨idsO, idsV⟩ := split_referenceIds rfl rfl objects ids
    rw [unlined, unlined, iho objects idsO, names, ihv values idsV]
  | binary _ _ _ ihl ihr | logical _ _ _ ihl ihr =>
    obtain ⟨⟩ := sameNode_of_written_eq same
    injection same with lefts operators rights
    obtain ⟨idsL, idsR⟩ := split_referenceIds rfl rfl lefts ids
    rw [unlined, unlined, ihl lefts idsL, operators, ihr rights idsR]

end Expr

section Readers

open TokenReader

variable {text : String} {tokens : List Token} {calls : List Call} {k : Nat} {e : Expr}

/-- Any tree that a reader over the tokens of a text gives is legible. -/
theorem legible_of_answers (scanned : tokensOf text = .ok tokens)
    (read : ((ofTokens tokens).answers calls)[k]? = some (.ok e)) (textFree : e.TextFree) :
    e.Legible := by
  have reads := reads_of_answers read
  obtain ⟨ts, spelled, rest⟩ := reads.spelled
  refine Expr.legible_of_spells spelled reads.wellFormed textFree fun t mem => ?_
  have ahead : t ∈ ((ofTokens tokens).behindCalls (calls.take k)).rest :=
    rest ▸ List.mem_append_left _ mem
  have among := (precedes_behindCalls (ofTokens tokens) (calls.take k)).suffix.subset ahead
  exact Token.toldByLexeme_of_mem_textItems
    (mem_textItems_of_tokensOf scanned ((rest_ofTokens_sublist tokens).subset among))

/-- The references of a tree that the first call gives are numbered from zero. -/
theorem referenceIds_of_first_answer
    (read : ((ofTokens tokens).answers calls)[0]? = some (.ok e)) :
    e.referenceIds = List.range' 0 e.references.length := (numbers_of_answers read).ids

end Readers

/-- Two trees without texts that readers give for tokens of texts, at any of the calls on them,
have different bracketed forms unless they are equal but for the numbers of their references and
the lines of their tokens. Where both are given by a first call, the numbers are equal too. -/
theorem toBracketed_determines_tree {a b : String} {ts us : List Token} {calls calls' : List Call}
    {j k : Nat} {e f : Expr} (scannedA : tokensOf a = .ok ts) (scannedB : tokensOf b = .ok us)
    (readE : ((TokenReader.ofTokens ts).answers calls)[j]? = some (.ok e))
    (readF : ((TokenReader.ofTokens us).answers calls')[k]? = some (.ok f))
    (textFreeE : e.TextFree) (textFreeF : f.TextFree) (same : e.toBracketed = f.toBracketed) :
    (e.mapIds fun _ => 0).unlined = (f.mapIds fun _ => 0).unlined ∧
      (j = 0 → k = 0 → e.unlined = f.unlined) := by
  have legibleE := legible_of_answers scannedA readE textFreeE
  have legibleF := legible_of_answers scannedB readF textFreeF
  have texts : e.toBracketed.toList ++ [] = f.toBracketed.toList ++ [] := by rw [same]
  obtain ⟨written, -⟩ := Expr.unique_of_legible legibleE legibleF _ _ texts
  refine ⟨written, ?_⟩
  rintro rfl rfl
  refine Expr.unlined_eq_of_written_eq written ?_
  rw [referenceIds_of_first_answer readE, referenceIds_of_first_answer readF,
    ← e.length_references_written, written, f.length_references_written]

/-- The tokens of `x.p = -y + 2.5` on a line, with a spelling of the number, and the end. -/
def sumToFieldTokens (line : Nat) (number : String) : List Token :=
  [⟨.identifier, "x", line⟩, ⟨.punctuator .dot, ".", line⟩, ⟨.identifier, "p", line⟩,
    ⟨.punctuator .equal, "=", line⟩, ⟨.punctuator .minus, "-", line⟩, ⟨.identifier, "y", line⟩,
    ⟨.punctuator .plus, "+", line⟩, ⟨.float (.ofBits 4612811918334230528), number, line⟩,
    ⟨.endOfText, "", line⟩]

def sumToField (line : Nat) : Expr :=
  .set (.reference 0 ⟨.identifier, "x", line⟩) ⟨.identifier, "p", line⟩
    (.binary (.unary ⟨.punctuator .minus, "-", line⟩ (.reference 1 ⟨.identifier, "y", line⟩))
      ⟨.punctuator .plus, "+", line⟩ (.literal (.float (.ofBits 4612811918334230528))))

theorem sumToField_told_by_form :
    tokensOf "x.p = -y + 2.50" = .ok (sumToFieldTokens 1 "2.50") ∧
      tokensOf "\nx.p=-y+2.5" = .ok (sumToFieldTokens 2 "2.5") ∧
      (sumToField 1).toBracketed = (sumToField 2).toBracketed ∧
      (sumToField 1).unlined = (sumToField 2).unlined := by
  have scannedA : tokensOf "x.p = -y + 2.50" = .ok (sumToFieldTokens 1 "2.50") := by
    decide +kernel
  have scannedB : tokensOf "\nx.p=-y+2.5" = .ok (sumToFieldTokens 2 "2.5") := by
    decide +kernel
  have readA : ((TokenReader.ofTokens (sumToFieldTokens 1 "2.50")).answers
      [.wholeExpression])[0]? = some (.ok (sumToField 1)) := rfl
  have readB : ((TokenReader.ofTokens (sumToFieldTokens 2 "2.5")).answers
      [.wholeExpression])[0]? = some (.ok (sumToField 2)) := rfl
  have textFree (line : Nat) : (sumToField line).TextFree := ⟨trivial, trivial, nofun⟩
  have same : (sumToField 1).toBracketed = (sumToField 2).toBracketed := rfl
  exact ⟨scannedA, scannedB, same, (toBracketed_determines_tree scannedA scannedB readA readB
    (textFree 1) (textFree 2) same).2 rfl rfl⟩

end ScopedExpr
