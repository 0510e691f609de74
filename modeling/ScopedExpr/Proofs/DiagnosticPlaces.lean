import ScopedExpr.Proofs.BlamedTokens
import ScopedExpr.Proofs.FirstImpossibleToken
import ScopedExpr.Proofs.ItemLines
import ScopedExpr.Proofs.JoinedTexts
import ScopedExpr.Proofs.RuntimeFaultsOnly

/-!
# Places of diagnostics

Every diagnostic of a text points into the text. Its line is one of the text, since items
have lines of the text and all later stages keep the tokens that they are given. A fault of
reading names a token of the text, and a fault of evaluation lies at a token that its tree
has kept: at the operator or the property that raised it, or at the variable without a value.
-/

namespace ScopedExpr

theorem Scans.line_mem {line : Nat} {text : List Char} {items : List (Except LexError Token)}
    {item : Except LexError Token} (h : Scans line text items) (mem : item ∈ items) :
    line ≤ itemLine item ∧ itemLine item ≤ line + newlines text := by
  induction h with
  | @nothing line gap blank =>
    obtain rfl := List.mem_singleton.1 mem
    exact ⟨Nat.le_add_right _ _, Nat.le_refl _⟩
  | @item line gap word rest result items _ _ _ ih =>
    simp only [newlines_append]
    rcases List.mem_cons.1 mem with rfl | later
    · rw [itemLine_lexedItem]
      omega
    · have within := ih later
      omega

theorem line_mem_of_textItems {text : List Char} {item : Except LexError Token}
    (mem : item ∈ textItems text) : 1 ≤ itemLine item ∧ itemLine item ≤ 1 + newlines text :=
  (scans_items text 1).line_mem mem

section Tokens

variable {text : String} {tokens : List Token} {t : Token}

theorem line_mem_of_tokensOf (scanned : tokensOf text = .ok tokens) (mem : t ∈ tokens) :
    1 ≤ t.line ∧ t.line ≤ 1 + newlines text.toList :=
  line_mem_of_textItems (mem_textItems_of_tokensOf scanned mem)

theorem line_mem_of_lexError {err : LexError} (failed : tokensOf text = .error err) :
    1 ≤ err.line ∧ err.line ≤ 1 + newlines text.toList :=
  line_mem_of_textItems (mem_textItems_of_lexError failed)

theorem exists_end_of_tokensOf (scanned : tokensOf text = .ok tokens) :
    ∃ t ∈ tokens, t.kind = .endOfText := by
  have last := (scans_items text.toList 1).getLast?_items
  have items : (Cursor.reading text.toList 1).items = tokens.map .ok :=
    collectTokens_eq_ok_iff.1 scanned
  have mem := List.mem_of_getLast? last
  rw [items, List.mem_map] at mem
  obtain ⟨t, inTokens, ⟨⟩⟩ := mem
  exact ⟨_, inTokens, rfl⟩

end Tokens

namespace Expr

/-- The tokens that a tree keeps: operators, and names of variables and properties. -/
def tokens : Expr → List Token
  | literal _ => []
  | grouping e => e.tokens
  | reference _ name => [name]
  | assign _ name value => name :: value.tokens
  | get object name => object.tokens ++ [name]
  | set object name value => object.tokens ++ name :: value.tokens
  | unary operator operand => operator :: operand.tokens
  | binary left operator right => left.tokens ++ operator :: right.tokens
  | logical left operator right => left.tokens ++ operator :: right.tokens

/-- The names of the variable nodes of a tree, which are read and not written. -/
def readNames : Expr → List Token
  | literal _ => []
  | grouping e => e.readNames
  | reference _ name => [name]
  | assign _ _ value => value.readNames
  | get object _ => object.readNames
  | set object _ value => object.readNames ++ value.readNames
  | unary _ operand => operand.readNames
  | binary left _ right => left.readNames ++ right.readNames
  | logical left _ right => left.readNames ++ right.readNames

theorem Spells.tokens_subset {e : Expr} {ts : List Token} (h : e.Spells ts) : e.tokens ⊆ ts := by
  induction h with
  | literal _ => exact List.nil_subset _
  | reference => exact List.Subset.refl _
  | _ => grind [tokens]

end Expr

/-- A runtime fault lies at a token of a list, and that of a variable at the variable. -/
def EvalError.PointsAt (tokens names : List Token) : EvalError → Prop
  | runtime fault line => ∃ t ∈ tokens, t.line = line ∧
      ∀ name, fault = .undefinedVariable name → t ∈ names ∧ t.lexeme = name
  | internal _ _ => True

namespace EvalError

variable {err : EvalError} {ts us vs ws : List Token}

theorem PointsAt.mono (h : err.PointsAt ts vs) (tokens : ts ⊆ us) (names : vs ⊆ ws) :
    err.PointsAt us ws := by
  cases err with
  | internal fault line => trivial
  | runtime fault line =>
    obtain ⟨t, mem, same, undefined⟩ := h
    refine ⟨t, tokens mem, same, fun name is => ?_⟩
    obtain ⟨isVariable, named⟩ := undefined name is
    exact ⟨names isVariable, named⟩

end EvalError

theorem OperatorFault.pointsAt {known : TokenKind → Prop} {operator : Token} {err : EvalError}
    {ts vs : List Token} (h : OperatorFault known operator err) (mem : operator ∈ ts) :
    err.PointsAt ts vs := by
  cases h with
  | operands other => exact ⟨operator, mem, rfl, fun name is => absurd is (other name)⟩
  | misuse _ => trivial

/-- A fault that a tree raises lies at a token of the tree. -/
theorem Expr.Raises.pointsAt {e : Expr} {err : EvalError} (h : e.Raises err) :
    err.PointsAt e.tokens e.readNames := by
  induction h with
  | grouping _ ih => exact ih
  | undefined is =>
    rw [is]
    refine ⟨_, List.mem_singleton_self _, rfl, ?_⟩
    rintro name ⟨⟩
    exact ⟨List.mem_singleton_self _, rfl⟩
  | assign _ ih => exact ih.mono (by simp [tokens]) (by simp [readNames])
  | get _ ih | set _ ih => exact ih.mono (by simp [tokens]) (by simp [readNames])
  | noProperties is | noFields is =>
    rw [is]
    exact ⟨_, by simp [tokens], rfl, nofun⟩
  | unary _ ih => exact ih.mono (by simp [tokens]) (by simp [readNames])
  | unaryOperator failed =>
    exact (OperatorFault.of_applyUnary failed).pointsAt (by simp [tokens])
  | binaryLeft _ ih | logicalLeft _ ih => exact ih.mono (by simp [tokens]) (by simp [readNames])
  | binaryRight _ ih | logicalRight _ ih => exact ih.mono (by simp [tokens]) (by simp [readNames])
  | binaryOperator failed =>
    exact (OperatorFault.of_applyBinary failed).1.pointsAt (by simp [tokens])

namespace RuntimeFault

theorem message_undefinedVariable (name : String) :
    (undefinedVariable name).message = "Undefined variable '" ++ name ++ "'." := rfl

theorem message_operandsNotNumbers (left right : String) :
    (operandsNotNumbers left right).message =
      "Operands must be numbers, got " ++ left ++ " and " ++ right ++ "." := rfl

theorem message_operandsNotAddable (left right : String) :
    (operandsNotAddable left right).message =
      "Operands must be two numbers or two strings, got " ++ left ++ " and " ++ right ++ "." := rfl

/-- No other message begins like that for a variable without a value. -/
theorem undefinedVariable_of_head?_message {fault : RuntimeFault}
    (h : fault.message.toList.head? = some 'U') : ∃ name, fault = undefinedVariable name := by
  cases fault with
  | undefinedVariable name => exact ⟨name, rfl⟩
  | operandsNotNumbers left right =>
    rw [message_operandsNotNumbers] at h
    simp only [String.toList_append, List.append_assoc] at h
    cases h
  | operandsNotAddable left right =>
    rw [message_operandsNotAddable] at h
    simp only [String.toList_append, List.append_assoc] at h
    cases h
  | _ => cases h

/-- The message for a variable without a value tells the fault and the name. -/
theorem eq_of_message_eq {fault : RuntimeFault} {name : String}
    (h : fault.message = (undefinedVariable name).message) : fault = undefinedVariable name := by
  have head : (undefinedVariable name).message.toList.head? = some 'U' := by
    rw [message_undefinedVariable, String.toList_append, String.toList_append]
    rfl
  rw [← h] at head
  obtain ⟨other, rfl⟩ := undefinedVariable_of_head?_message head
  rw [message_undefinedVariable, message_undefinedVariable, String.append_left_inj,
    String.append_right_inj] at h
  rw [h]

end RuntimeFault

theorem Token.mention_eq (t : Token) :
    t.mention = if t.kind = .endOfText then "end" else t.lexeme := by
  split
  · next is => exact t.mention_of_end is
  · next is => exact t.mention_of_ne_end is

/-- When a text has no value, its diagnostic has a line of the text. One of reading has the
line and the lexeme of a token that is no comment, where the end of the text is called `end`.
One of evaluation has the line of a token that the tree keeps, an operator or the name of a
variable or a property; where the message is that of a variable without a value, the token is
a variable of the tree that has the name in the message. -/
theorem diagnostic_points_into_text {text : String} {d : Diagnostic}
    (failed : evaluateText text = .error d) :
    (∃ line, d.line? = some line ∧ 1 ≤ line ∧ line ≤ 1 + newlines text.toList) ∧
    (∀ line lexeme message, d = .parse line lexeme message →
      ∃ tokens, tokensOf text = .ok tokens ∧ ∃ t ∈ tokens, TokenReader.isCode t = true ∧
        t.line = line ∧ lexeme = if t.kind = .endOfText then "end" else t.lexeme) ∧
    ∀ line message, d = .runtime line message →
      ∃ e, Expr.ofText text = .ok e ∧ ∃ t ∈ e.tokens, t.line = line ∧
        ∀ name, message = (RuntimeFault.undefinedVariable name).message →
          t ∈ e.readNames ∧ t.lexeme = name := by
  obtain ⟨err, lexed, rfl⟩ | ⟨tokens, scanned, stage⟩ := cases_of_evaluateText_error failed
  · exact ⟨⟨err.line, rfl, line_mem_of_lexError lexed⟩, nofun, nofun⟩
  obtain ⟨err, unread, rfl⟩ | ⟨e, err, read, value, rfl⟩ := stage
  · obtain ⟨mem, code⟩ := blamed_mem_of_ofTokens (exists_end_of_tokensOf scanned) unread
    refine ⟨⟨err.token.line, rfl, line_mem_of_tokensOf scanned mem⟩, ?_, nofun⟩
    rintro _ _ _ ⟨⟩
    exact ⟨tokens, scanned, err.token, mem, code, rfl, err.token.mention_eq⟩
  · obtain ⟨wf, readable⟩ := readable_of_ofTokens read
    have points := (Expr.raises_of_value value).pointsAt
    have runtime := wf.faultsAtRuntime_value err value
    cases err with
    | internal fault line => exact absurd runtime id
    | runtime fault line =>
      obtain ⟨t, mem, rfl, undefined⟩ := points
      have inText := (TokenReader.rest_ofTokens_sublist tokens).subset
        (readable.spelled.tokens_subset mem)
      refine ⟨⟨t.line, rfl, line_mem_of_tokensOf scanned inText⟩, nofun, ?_⟩
      rintro _ _ ⟨⟩
      have tree := Expr.ofText_of_tokens scanned
      refine ⟨e, tree.trans (readExpression_of_ok read), t, mem, rfl, fun name message => ?_⟩
      exact undefined name (RuntimeFault.eq_of_message_eq message)

def sumWithUnbound : Expr :=
  .binary (.literal (.integer 1)) ⟨.punctuator .plus, "+", 1⟩
    (.reference 0 ⟨.identifier, "b", 3⟩)

/-- A variable without a value on the last of three lines, and a bracket that is still open
where the text ends. -/
theorem diagnostics_of_unbound_and_unclosed :
    evaluateText "1 +\n# c\nb" = .error (.runtime 3 "Undefined variable 'b'.") ∧
      (∃ e, Expr.ofText "1 +\n# c\nb" = .ok e ∧
        ∃ t ∈ e.tokens, t.line = 3 ∧ t ∈ e.readNames ∧ t.lexeme = "b") ∧
      evaluateText "(1\n" = .error (.parse 2 "end" "Expect ')' after expression.") ∧
      ∃ tokens, tokensOf "(1\n" = .ok tokens ∧ ∃ t ∈ tokens, TokenReader.isCode t = true ∧
        t.line = 2 ∧ "end" = if t.kind = .endOfText then "end" else t.lexeme := by
  have tree : Expr.ofText "1 +\n# c\nb" = .ok sumWithUnbound := by decide +kernel
  have unbound : ScopeTree.empty.addRoot.get 0 "b" 3 =
      .error (.runtime (.undefinedVariable "b") 3) := by
    rw [ScopeTree.get, ScopeTree.chain_of_none rfl]
    rfl
  have value : sumWithUnbound.value = .error (.runtime (.undefinedVariable "b") 3) := by
    have read : Access.resolved.read (Session.start .empty) 0 ⟨.identifier, "b", 3⟩ =
        .error (.runtime (.undefinedVariable "b") 3) := unbound
    have run : (sumWithUnbound.evaluate .resolved).run (Session.start .empty) =
        .error (.runtime (.undefinedVariable "b") 3) (Session.start .empty) := by
      simp only [sumWithUnbound, Expr.evaluate, EStateM.run_bind, EStateM.run_pure,
        Evaluating.run_read, read]
      rw [Evaluating.run_ofExcept_error]
    exact congrArg Prod.fst (Session.evaluate_eq_error_iff.2 run)
  have failed : evaluateText "1 +\n# c\nb" = .error (.runtime 3 "Undefined variable 'b'.") := by
    rw [evaluateText_of_ok tree, value]
    rfl
  have unclosed : evaluateText "(1\n" =
      .error (.parse 2 "end" "Expect ')' after expression.") := by
    decide +kernel
  obtain ⟨e, read, t, kept, line, undefined⟩ := (diagnostic_points_into_text failed).2.2 _ _ rfl
  have atEnd := (diagnostic_points_into_text unclosed).2.1 _ _ _ rfl
  exact ⟨failed, ⟨e, read, t, kept, line, undefined "b" rfl⟩, unclosed, atEnd⟩

end ScopedExpr
