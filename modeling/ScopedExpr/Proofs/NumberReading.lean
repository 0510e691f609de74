import Mathlib.Data.List.Basic
import ScopedExpr.Proofs.LongestLexeme

/-!
# What numbers stand for

A number stands for something when each separator stands directly between two digits
and, without a point, its digits write a 64-bit integer. With a point it stands for the
binary64 number nearest to the decimal fraction.
-/

namespace ScopedExpr

/-- Every separator stands directly between two digits. -/
def SeparatorsInside (word : List Char) : Prop :=
  ∀ before after, word = before ++ '_' :: after →
    before.getLast?.any Char.isDigit = true ∧ after.head?.any Char.isDigit = true

/-- The decimal fraction of the digits before and behind a point. -/
def decimalFraction (whole fraction : List Char) : Decimal :=
  ⟨readDigits (withoutSeparators (whole ++ fraction)),
    -((withoutSeparators fraction).length : Int)⟩

/-- What a number stands for, or that it is malformed. -/
inductive NumberReads (word : List Char) : Except LexFault TokenKind → Prop where
  | integer {n : Int64} (inside : SeparatorsInside word) (noPoint : '.' ∉ word)
      (value : n.toInt = readDigits (withoutSeparators word)) :
      NumberReads word (.ok (.integer n))
  | float {whole fraction} (inside : SeparatorsInside word)
      (split : word = whole ++ '.' :: fraction) (onePoint : '.' ∉ whole ∧ '.' ∉ fraction) :
      NumberReads word (.ok (.float (decimalFraction whole fraction).toBinary64))
  | loose (outside : ¬ SeparatorsInside word) :
      NumberReads word (.error (.malformedNumber word))
  | large (noPoint : '.' ∉ word)
      (above : Int64.maxValue.toInt < readDigits (withoutSeparators word)) :
      NumberReads word (.error (.malformedNumber word))

/-- The character before a place, or what is known of it, is a digit. -/
private def digitBefore (afterDigit : Bool) (before : List Char) : Bool :=
  before.getLast?.elim afterDigit Char.isDigit

private theorem digitBefore_cons (afterDigit : Bool) (c : Char) (before : List Char) :
    digitBefore afterDigit (c :: before) = digitBefore c.isDigit before := by
  cases before with
  | nil => rfl
  | cons d before => simp [digitBefore, List.getLast?_cons]

private theorem separatorsEmbedded_iff_digitBefore (afterDigit : Bool) (word : List Char) :
    separatorsEmbedded afterDigit word = true ↔
      ∀ before after, word = before ++ '_' :: after →
        digitBefore afterDigit before = true ∧ after.head?.any Char.isDigit = true := by
  induction word generalizing afterDigit with
  | nil => simp [separatorsEmbedded]
  | cons c rest ih =>
    have step : (∀ before after, c :: rest = before ++ '_' :: after →
        digitBefore afterDigit before = true ∧ after.head?.any Char.isDigit = true) ↔
        (c = '_' → afterDigit = true ∧ rest.head?.any Char.isDigit = true) ∧
          separatorsEmbedded c.isDigit rest = true := by
      rw [ih]
      constructor
      · intro all
        refine ⟨fun is => all [] rest (by rw [is]; rfl), fun before after split => ?_⟩
        rw [← digitBefore_cons afterDigit]
        exact all (c :: before) after (by rw [split]; rfl)
      · rintro ⟨here, later⟩ before after split
        cases before with
        | nil =>
          obtain ⟨is, rfl⟩ := List.cons.inj split
          exact here is
        | cons d before =>
          obtain ⟨rfl, behind⟩ := List.cons.inj split
          rw [digitBefore_cons]
          exact later before after behind
    rw [step, separatorsEmbedded]
    by_cases is : c = '_'
    · subst is
      have none : Char.isDigit '_' = false := rfl
      simp [none, and_assoc]
    · simp [is]

theorem separatorsEmbedded_iff (word : List Char) :
    separatorsEmbedded false word = true ↔ SeparatorsInside word := by
  rw [separatorsEmbedded_iff_digitBefore]
  have same (before : List Char) :
      digitBefore false before = before.getLast?.any Char.isDigit := by
    rw [digitBefore]
    cases before.getLast? <;> rfl
  simp only [same, SeparatorsInside]

theorem withoutSeparators_append (a b : List Char) :
    withoutSeparators (a ++ b) = withoutSeparators a ++ withoutSeparators b :=
  List.filter_append a b

theorem NumberReads.unique {word : List Char} {r s : Except LexFault TokenKind}
    (hr : NumberReads word r) (hs : NumberReads word s) : r = s := by
  cases hr with
  | @integer n inside noPoint value =>
    cases hs with
    | integer _ _ value' => rw [Int64.toInt_inj.1 (value.trans value'.symm)]
    | float _ split _ => simp [split] at noPoint
    | loose outside => exact absurd inside outside
    | large _ above =>
      have le := Int64.toInt_le n
      omega
  | float inside split onePoint =>
    cases hs with
    | integer _ noPoint _ => simp [split] at noPoint
    | float _ split' onePoint' =>
      have same := split'.symm.trans split
      obtain ⟨rfl, -, rfl⟩ := (List.append_cons_inj_of_notMem onePoint'.1 onePoint'.2).1 same
      rfl
    | loose outside => exact absurd inside outside
    | large noPoint _ => simp [split] at noPoint
  | loose outside =>
    cases hs with
    | integer inside _ _ => exact absurd inside outside
    | float inside _ _ => exact absurd inside outside
    | loose _ => rfl
    | large _ _ => rfl
  | large noPoint above =>
    cases hs with
    | @integer n _ _ value =>
      have le := Int64.toInt_le n
      omega
    | float _ split _ => simp [split] at noPoint
    | loose _ => rfl
    | large _ _ => rfl

section Recognised

variable {c : Char} {after whole fraction : List Char} {result : Except LexFault TokenKind}

theorem numberKind?_outside (outside : ¬ SeparatorsInside (whole ++ fraction)) :
    numberKind? whole fraction = none := by
  rw [numberKind?, if_neg]
  rwa [separatorsEmbedded_iff]

theorem numberKind?_whole (inside : SeparatorsInside whole) :
    numberKind? whole [] = (int64? (readDigits (withoutSeparators whole))).map .integer := by
  rw [numberKind?, if_pos]
  · rfl
  · rwa [List.append_nil, separatorsEmbedded_iff]

theorem numberKind?_point (inside : SeparatorsInside (whole ++ '.' :: fraction)) :
    numberKind? whole ('.' :: fraction) =
      some (.float (decimalFraction whole fraction).toBinary64) := by
  rw [numberKind?, if_pos ((separatorsEmbedded_iff _).2 inside), decimalFraction,
    withoutSeparators_append]
  simp only [List.isEmpty_cons, Bool.false_eq_true, if_false, List.drop_one, List.tail_cons]

theorem lt_of_int64?_none {n : Nat} (h : int64? n = none) : Int64.maxValue.toInt < n := by
  have low : Int64.minValue.toInt ≤ 0 := by decide
  unfold int64? at h
  split at h
  · cases h
  · omega

theorem numberReads_munchNumber (digit : c.isDigit = true) :
    NumberReads (munchNumber c after).text (munchNumber c after).result := by
  rw [munchNumber_eq]
  have noPoint : '.' ∉ wholePart c after := point_notMem_of_isDigits (isDigits_wholePart digit)
  by_cases inside : SeparatorsInside (wholePart c after ++ fractionPart after)
  · obtain nothing | ⟨digits, point, isDigits⟩ := fractionPart_cases after
    · rw [nothing, List.append_nil] at inside ⊢
      rw [numberKind?_whole inside]
      cases number : int64? (readDigits (withoutSeparators (wholePart c after))) with
      | none => exact .large noPoint (lt_of_int64?_none number)
      | some n => exact .integer inside noPoint (toInt_of_int64? number)
    · rw [point] at inside ⊢
      rw [numberKind?_point inside]
      exact .float inside rfl ⟨noPoint, point_notMem_of_isDigits isDigits⟩
  · rw [numberKind?_outside inside]
    exact .loose inside

end Recognised

end ScopedExpr
