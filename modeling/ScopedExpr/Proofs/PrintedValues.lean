import ScopedExpr.Proofs.ExpressionRecognition
import ScopedExpr.Proofs.WrittenNumbers
import ScopedExpr.TextEvaluation

/-!
# Printed values are read back

What is shown of a truth value, of nothing, or of a number is an expression for it: a
reserved word, a number, or a number behind a minus sign. The sign of a zero comes back with
the minus sign, and a whole binary64 number keeps its point.
-/

namespace ScopedExpr

open Reading

/-- The values that are shown as an expression for them. The least integer has no magnitude
among the integers, a NaN and an infinity are shown as names, and a text without quotes. -/
def Value.IsExpressible : Value → Prop
  | .none | .bool _ => True
  | .integer n => n ≠ Int64.minValue
  | .float x => ∃ negative m, x = .finite negative m
  | .text _ => False

section Scanning

variable {word : List Char} {kind : TokenKind} {line : Nat}
  {items : List (Except LexError Token)}

theorem scans_word (begins : BeginsWith word (.ok kind) word) (line : Nat) :
    Scans line word [.ok ⟨kind, String.ofList word, line⟩,
      .ok ⟨.endOfText, "", line + newlines word⟩] := by
  have nothing : Blank [] := nofun
  have alone : BeginsWith (word ++ []) (.ok kind) word := by rwa [List.append_nil]
  have scans : Scans line (word ++ []) _ := .item nothing alone (.nothing nothing)
  rw [List.append_nil] at scans
  exact scans

theorem scans_minus (h : Scans line word items) :
    Scans line ('-' :: word) (.ok ⟨.punctuator .minus, "-", line⟩ :: items) := by
  have nothing : Blank [] := nofun
  have begins : BeginsWith (['-'] ++ word) (.ok (.punctuator .minus)) ['-'] :=
    BeginsWith.munch (c := '-') rfl
  exact .item nothing begins h

theorem tokensOf_of_scans {tokens : List Token} (h : Scans 1 word (tokens.map .ok)) :
    tokensOf (String.ofList word) = .ok tokens := by
  rw [tokensOf, String.toList_ofList]
  exact collectTokens_eq_ok_iff.2 ((items_eq_iff_scans _ _ _).2 h)

/-- A word of the grammar is a keyword as a whole. -/
theorem beginsWith_keyword (k : Keyword) :
    BeginsWith k.spelling.toList (.ok (.keyword k)) k.spelling.toList := by
  have name : IsName k.spelling.toList := by
    cases k <;> exact ⟨_, _, rfl, rfl, List.all_eq_true.1 (by decide)⟩
  exact .name ⟨List.prefix_rfl, name, fun _ front _ => front.length_le⟩ (.keyword rfl)

theorem beginsWith_number {result : Except LexFault TokenKind} (number : IsNumber word)
    (reads : NumberReads word result) : BeginsWith word result word :=
  .number ⟨List.prefix_rfl, number, fun _ front _ => front.length_le⟩ reads

theorem separatorsInside_of_notMem {text : List Char} (free : '_' ∉ text) :
    SeparatorsInside text := by
  rintro before after rfl
  simp at free

theorem beginsWith_integer {n : Int64} (digits : Digits word) (value : n.toInt = readDigits word) :
    BeginsWith word (.ok (.integer n)) word := by
  refine beginsWith_number (.inl digits.isDigits) (.integer ?_ (digits.notMem rfl) ?_)
  · exact separatorsInside_of_notMem (digits.notMem rfl)
  · rwa [digits.withoutSeparators]

theorem beginsWith_float {whole fraction : List Char} {m : Magnitude} (hw : Digits whole)
    (hf : Digits fraction) (read : (decimalFraction whole fraction).magnitude? = some m) :
    BeginsWith (whole ++ '.' :: fraction) (.ok (.float (.finite false m)))
      (whole ++ '.' :: fraction) := by
  rw [← Decimal.toBinary64_of_magnitude? read]
  have free : '_' ∉ whole ++ '.' :: fraction := by
    simp [hw.notMem (c := '_') rfl, hf.notMem (c := '_') rfl]
  refine beginsWith_number (.inr ⟨whole, fraction, rfl, hw.isDigits, hf.isDigits⟩) ?_
  exact .float (separatorsInside_of_notMem free) rfl ⟨hw.notMem rfl, hf.notMem rfl⟩

end Scanning

section Reading

variable {t minus ending : Token} {v : Value}

theorem rest_ofTokens_literal (kind : t.kind = v.tokenKind) (isEnd : ending.kind = .endOfText) :
    (TokenReader.ofTokens [t, ending]).rest = [t] := by
  rw [TokenReader.rest_ofTokens_cons, TokenReader.rest_ofTokens_end isEnd]
  · rw [TokenReader.isCode, kind]
    rcases v with _ | (_ | _) | _ | _ | _ <;> rfl
  · rw [kind]
    rcases v with _ | (_ | _) | _ | _ | _ <;> simp [Value.tokenKind]

theorem ofTokens_literal (kind : t.kind = v.tokenKind) (isEnd : ending.kind = .endOfText) :
    Expr.ofTokens [t, ending] = .ok (.literal v) := by
  have within : 1 ≤ maxNesting - 1 := by decide
  refine ofTokens_of_readable trivial ⟨?_, within, rfl, one_le_maxNesting⟩
  rw [rest_ofTokens_literal kind isEnd]
  exact .literal kind

theorem ofTokens_negated (isMinus : minus.kind = .punctuator .minus)
    (kind : t.kind = v.tokenKind) (isEnd : ending.kind = .endOfText) :
    Expr.ofTokens [minus, t, ending] = .ok (.unary minus (.literal v)) := by
  have tighter : 7 ≤ (Expr.literal v).level := Nat.le_succ 7
  have within : 2 ≤ maxNesting - 1 := by decide
  have bounded : 2 ≤ maxNesting := by decide
  refine ofTokens_of_readable ⟨.inr (.inl isMinus), tighter, trivial⟩ ⟨?_, within, rfl, bounded⟩
  rw [TokenReader.rest_ofTokens_cons, rest_ofTokens_literal kind isEnd]
  · exact .unary (.literal kind)
  · rw [TokenReader.isCode, isMinus]
  · simp [isMinus]

end Reading

section Values

variable {text : String} {e : Expr} {v : Value} {word : List Char}

/-- A text has a value in every session, which it leaves as it is, and as a whole program. -/
def StandsFor (text : String) (v : Value) : Prop :=
  (∀ s : Session, s.evaluateText text = (.ok v, s)) ∧ evaluateText text = .ok v

theorem standsFor_of_value (read : Expr.ofText text = .ok e)
    (value : ∀ s : Session, s.evaluate .resolved e = (.ok v, s)) : StandsFor text v := by
  constructor
  · intro s
    simp only [Session.evaluateText, read, value]
    rfl
  · rw [evaluateText_of_ok read, Expr.value, value]
    rfl

theorem standsFor_literal (begins : BeginsWith word (.ok v.tokenKind) word) :
    StandsFor (String.ofList word) v := by
  have scanned : tokensOf (String.ofList word) = .ok [⟨v.tokenKind, String.ofList word, 1⟩,
      ⟨.endOfText, "", 1 + newlines word⟩] := tokensOf_of_scans (scans_word begins 1)
  have read := Expr.ofText_of_tokens scanned
  rw [readExpression_of_ok (ofTokens_literal rfl rfl)] at read
  exact standsFor_of_value read fun _ => rfl

theorem standsFor_negated {w : Value} (begins : BeginsWith word (.ok w.tokenKind) word)
    (negated : ∀ minus : Token, minus.kind = .punctuator .minus → applyUnary minus w = .ok v) :
    StandsFor (String.ofList ('-' :: word)) v := by
  let minus : Token := ⟨.punctuator .minus, "-", 1⟩
  have scanned : tokensOf (String.ofList ('-' :: word)) = .ok [minus,
      ⟨w.tokenKind, String.ofList word, 1⟩, ⟨.endOfText, "", 1 + newlines word⟩] :=
    tokensOf_of_scans (scans_minus (scans_word begins 1))
  have read := Expr.ofText_of_tokens scanned
  rw [readExpression_of_ok (ofTokens_negated rfl rfl rfl)] at read
  refine standsFor_of_value read fun s => ?_
  have step : (Expr.unary minus (.literal w)).evaluate .resolved =
      Evaluating.ofExcept (applyUnary minus w) := rfl
  rw [Session.evaluate_eq_ok_iff, step, negated minus rfl, Evaluating.run_ofExcept_ok]

theorem applyUnary_minus_integer {minus : Token} (is : minus.kind = .punctuator .minus)
    {m n : Int64} (opposite : -m.toInt = n.toInt) :
    applyUnary minus (.integer m) = .ok (.integer n) := by
  simp only [applyUnary, is, exactInteger, opposite, int64?_toInt]

theorem applyUnary_minus_float {minus : Token} (is : minus.kind = .punctuator .minus)
    (x : Binary64) : applyUnary minus (.float x) = .ok (.float x.neg) := by
  simp only [applyUnary, is]

end Values

theorem standsFor_integer {n : Int64} (notLeast : n ≠ Int64.minValue) :
    StandsFor (Value.integer n).display (.integer n) := by
  rw [Value.display]
  cases is : n.toInt with
  | ofNat k =>
    have value : n.toInt = readDigits (natNumeral k) := by
      rw [is, readDigits_natNumeral]
      rfl
    exact standsFor_literal (v := .integer n) (beginsWith_integer (.natNumeral k) value)
  | negSucc k =>
    have above : Int64.minValue.toInt < n.toInt :=
      lt_of_le_of_ne n.minValue_le_toInt fun same => notLeast (Int64.toInt_inj.1 same).symm
    have least : Int64.minValue.toInt = -9223372036854775808 := rfl
    -- the magnitude of a negative integer but the least is an integer
    have opposite : (Int64.ofInt (k + 1 : Nat)).toInt = (k + 1 : Nat) := by
      apply Int64.toInt_ofInt_of_le <;> omega
    have digits : (Int64.ofInt (k + 1 : Nat)).toInt = readDigits (natNumeral (k + 1)) := by
      rw [opposite, readDigits_natNumeral]
    refine standsFor_negated (w := .integer _) (beginsWith_integer (.natNumeral (k + 1)) digits)
      fun minus isMinus => applyUnary_minus_integer isMinus ?_
    rw [opposite, is]
    rfl

theorem standsFor_float (negative : Bool) (m : Magnitude) :
    StandsFor (Value.float (.finite negative m)).display (.float (.finite negative m)) := by
  obtain ⟨whole, fraction, written, hw, hf, read⟩ :=
    NumberStyle.exists_writeMagnitude (fun _ => rfl : ∀ e, NumberStyle.shown.positional e = true) m
  have begins := beginsWith_float hw hf read
  rw [← written] at begins
  rw [Value.display, NumberStyle.write]
  cases negative with
  | false =>
    rw [if_neg Bool.false_ne_true]
    exact standsFor_literal (v := .float (.finite false m)) begins
  | true =>
    rw [if_pos rfl]
    exact standsFor_negated (w := .float (.finite false m)) begins fun minus isMinus =>
      applyUnary_minus_float isMinus _

/-- A shown truth value, nothing, integer but the least, or finite binary64 number is read
back as itself in every session, whatever its sign and its size. -/
theorem display_reads_back {v : Value} (h : v.IsExpressible) :
    (∀ s : Session, s.evaluateText v.display = (.ok v, s)) ∧ evaluateText v.display = .ok v := by
  cases v with
  | none => exact standsFor_literal (v := .none) (beginsWith_keyword .noneWord)
  | bool b =>
    cases b with
    | false => exact standsFor_literal (v := .bool false) (beginsWith_keyword .falseWord)
    | true => exact standsFor_literal (v := .bool true) (beginsWith_keyword .trueWord)
  | integer n => exact standsFor_integer h
  | float x =>
    obtain ⟨negative, m, rfl⟩ := h
    exact standsFor_float negative m
  | text content => cases h

/-- The number nearest to minus a tenth, whose significand has 53 bits. -/
def minusTenth : Binary64 :=
  .finite true ⟨7205759403792794, 1018, by decide, by decide, .inr (by decide)⟩

theorem minusTenth_reads_back :
    (Value.float minusTenth).IsExpressible ∧ (Value.float minusTenth).display = "-0.1" ∧
      (Session.start .empty).evaluateText "-0.1" =
        (.ok (.float minusTenth), Session.start .empty) ∧
      evaluateText "-0.1" = .ok (.float minusTenth) := by
  have finite : (Value.float minusTenth).IsExpressible := ⟨true, _, rfl⟩
  have shown : (Value.float minusTenth).display = "-0.1" := by decide +kernel
  obtain ⟨inSessions, value⟩ := display_reads_back finite
  rw [shown] at inSessions value
  exact ⟨finite, shown, inSessions _, value⟩

end ScopedExpr
