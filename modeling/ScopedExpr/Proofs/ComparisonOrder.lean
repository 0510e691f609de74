import ScopedExpr.Proofs.LooseEquality
import ScopedExpr.Proofs.NearestNumber

/-!
# Comparisons

Numbers are compared by their places in the order of the binary64 numbers, integers by the
places of the numbers that they are rounded to. Rounding is monotone, so a comparison may take
two integers for one but never exchanges what is exactly in order, and what is exactly the
same is in order both ways. With a NaN, no comparison holds.
-/

namespace ScopedExpr

/-- What the mark of a comparison asks of two places. -/
def Punctuator.order? : Punctuator → Option (Int → Int → Bool)
  | less => some fun i j => i < j
  | lessEqual => some fun i j => i ≤ j
  | greater => some fun i j => j < i
  | greaterEqual => some fun i j => j ≤ i
  | _ => none

def Punctuator.comparisons : List Punctuator := [less, lessEqual, greater, greaterEqual]

theorem Punctuator.exists_order? {mark : Punctuator} (mem : mark ∈ comparisons) :
    ∃ r, mark.order? = some r := by
  cases mark <;> first
    | exact ⟨_, rfl⟩
    | simp [comparisons] at mem

namespace Binary64

theorem compareWith_swap (r : Int → Int → Bool) (x y : Binary64) :
    compareWith (fun i j => r j i) x y = compareWith r y x := by
  unfold compareWith
  cases x.rank? <;> cases y.rank? <;> rfl

theorem applyNumbers_of_order? {mark : Punctuator} {r : Int → Int → Bool}
    (order : mark.order? = some r) {operator : Token} (is : operator.kind = .punctuator mark)
    (x y : Binary64) : applyNumbers operator x y = .ok (.bool (compareWith r x y)) := by
  cases mark <;> cases order
  case greater =>
    rw [compareWith_swap (fun i j => decide (i < j)), applyNumbers, is]
    rfl
  case greaterEqual =>
    rw [compareWith_swap (fun i j => decide (i ≤ j)), applyNumbers, is]
    rfl
  all_goals
    rw [applyNumbers, is]
    rfl

end Binary64

namespace Value

/-- Whatever operands have these values, a mark between them gives the truth value, and the
session is left as the operands leave it. -/
def Compares (mark : Punctuator) (a b : Value) (truth : Bool) : Prop :=
  ∀ (access : Access) (s s₁ s₂ : Session) (left right : Expr) (operator : Token),
    operator.kind = .punctuator mark → s.evaluate access left = (.ok a, s₁) →
      s₁.evaluate access right = (.ok b, s₂) →
      s.evaluate access (.binary left operator right) = (.ok (.bool truth), s₂)

variable {mark : Punctuator} {a b : Value} {truth : Bool}

theorem compares_iff : Compares mark a b truth ↔
    ∀ operator : Token, operator.kind = .punctuator mark →
      applyBinary operator a b = .ok (.bool truth) := by
  constructor
  · intro compares operator is
    have run := compares .resolved (.start .empty) _ _ (.literal a) (.literal b) operator is rfl rfl
    rw [Session.evaluate_binary_of_ok rfl rfl] at run
    exact congrArg Prod.fst run
  · intro applied access s s₁ s₂ left right operator is hl hr
    rw [Session.evaluate_binary_of_ok hl hr, applied operator is]

theorem compares_iff_of_applied {told : Bool}
    (applied : ∀ operator : Token, operator.kind = .punctuator mark →
      applyBinary operator a b = .ok (.bool told)) :
    Compares mark a b truth ↔ told = truth := by
  rw [compares_iff]
  constructor
  · intro compares
    let operator : Token := ⟨.punctuator mark, "", 1⟩
    exact Value.bool.inj (Except.ok.inj ((applied operator rfl).symm.trans (compares operator rfl)))
  · rintro rfl
    exact applied

theorem compares_equalEqual_iff : Compares .equalEqual a b truth ↔ a.looseEq b = truth := by
  refine compares_iff_of_applied fun operator is => ?_
  rw [applyBinary, is]

section Numbers

variable {x y : Binary64} {r : Int → Int → Bool}

theorem applyBinary_of_order? (order : mark.order? = some r) {operator : Token}
    (is : operator.kind = .punctuator mark) (ha : a.toBinary64? = some x)
    (hb : b.toBinary64? = some y) : applyBinary operator a b = applyNumbers operator x y := by
  have arithmetic : applyBinary operator a b = applyArithmetic operator a b := by
    cases mark <;> cases order <;> rw [applyBinary, is]
  have noOperation : integerOperation? operator.kind = Option.none := by
    rw [is]
    cases mark <;> cases order <;> rfl
  have numbers : applyAsNumbers operator a b = applyNumbers operator x y := by
    rw [applyAsNumbers, ha, hb]
  rw [arithmetic, ← numbers]
  unfold applyArithmetic
  split
  · cases ha
  · rw [noOperation]
  · rfl

/-- A comparison of numbers asks for the order of their places; a NaN has none. -/
theorem compares_iff_of_order? (order : mark.order? = some r) (ha : a.toBinary64? = some x)
    (hb : b.toBinary64? = some y) : Compares mark a b truth ↔ x.compareWith r y = truth := by
  refine compares_iff_of_applied fun operator is => ?_
  rw [applyBinary_of_order? order is ha hb, Binary64.applyNumbers_of_order? order is]

theorem exists_toBinary64? (number : a.IsNumber) : ∃ x, a.toBinary64? = some x := by
  cases a with
  | integer n => exact ⟨_, rfl⟩
  | float x => exact ⟨x, rfl⟩
  | _ => cases number

end Numbers

/-- The place in the order at which a value is compared. -/
def RanksAt (a : Value) (i : Int) : Prop := ∃ x, a.toBinary64? = some x ∧ x.rank? = some i

theorem compares_iff_of_ranksAt {r : Int → Int → Bool} {i j : Int} (order : mark.order? = some r)
    (ha : a.RanksAt i) (hb : b.RanksAt j) : Compares mark a b truth ↔ r i j = truth := by
  obtain ⟨x, hx, rankX⟩ := ha
  obtain ⟨y, hy, rankY⟩ := hb
  rw [compares_iff_of_order? order hx hy, Binary64.compareWith_of_rank? rankX rankY]

/-- An exact number is compared at the place that it is rounded to. -/
theorem exists_ranksAt {p : ExactNumber} (h : a.exactNumber? = some p) :
    ∃ z, p.HasPlace z ∧ a.RanksAt (Binary64.roundedPlace z) := by
  cases a with
  | integer n =>
    cases h
    exact ⟨_, .integer n, _, rfl, Binary64.rank?_ofInt n.toInt⟩
  | float x =>
    obtain ⟨z, rank, place⟩ := Binary64.exists_place h
    exact ⟨z, place, x, rfl, (Binary64.roundedPlace_rank? rank).symm ▸ rank⟩
  | _ => cases h

section Laws

variable {c : Value} {p q r : ExactNumber}

theorem existsUnique_compares (ha : a.IsNumber) (hb : b.IsNumber)
    (mem : mark ∈ Punctuator.comparisons) : ∃! truth, Compares mark a b truth := by
  obtain ⟨r, order⟩ := Punctuator.exists_order? mem
  obtain ⟨x, hx⟩ := exists_toBinary64? ha
  obtain ⟨y, hy⟩ := exists_toBinary64? hb
  simp only [compares_iff_of_order? order hx hy]
  exact existsUnique_eq'

/-- An integer is compared as the number that it is rounded to. -/
theorem compares_integer_iff (n : Int64) (hb : b.IsNumber) (mem : mark ∈ Punctuator.comparisons) :
    (Compares mark (.integer n) b truth ↔ Compares mark (.float (.ofInt n.toInt)) b truth) ∧
      (Compares mark b (.integer n) truth ↔ Compares mark b (.float (.ofInt n.toInt)) truth) := by
  obtain ⟨r, order⟩ := Punctuator.exists_order? mem
  obtain ⟨y, hy⟩ := exists_toBinary64? hb
  have rounded : (integer n).toBinary64? = (float (.ofInt n.toInt)).toBinary64? := rfl
  constructor
  · rw [compares_iff_of_order? order rounded hy, compares_iff_of_order? order rfl hy]
  · rw [compares_iff_of_order? order hy rounded, compares_iff_of_order? order hy rfl]

theorem compares_nan (ha : a.IsNumber) (hb : b.IsNumber) (nan : a = .float .nan ∨ b = .float .nan)
    (mem : mark ∈ Punctuator.comparisons) : Compares mark a b false := by
  obtain ⟨r, order⟩ := Punctuator.exists_order? mem
  obtain ⟨x, hx⟩ := exists_toBinary64? ha
  obtain ⟨y, hy⟩ := exists_toBinary64? hb
  rw [compares_iff_of_order? order hx hy]
  rcases nan with rfl | rfl
  · cases hx
    exact Binary64.compareWith_nan_left r y
  · cases hy
    exact Binary64.compareWith_nan_right r x

theorem lessEqual_total (ha : a.exactNumber? = some p) (hb : b.exactNumber? = some q) :
    Compares .lessEqual a b true ∨ Compares .lessEqual b a true := by
  obtain ⟨i, -, rankA⟩ := exists_ranksAt ha
  obtain ⟨j, -, rankB⟩ := exists_ranksAt hb
  rw [compares_iff_of_ranksAt rfl rankA rankB, compares_iff_of_ranksAt rfl rankB rankA]
  simp only [decide_eq_true_eq]
  omega

theorem lessEqual_trans (ha : a.exactNumber? = some p) (hb : b.exactNumber? = some q)
    (hc : c.exactNumber? = some r) (hab : Compares .lessEqual a b true)
    (hbc : Compares .lessEqual b c true) : Compares .lessEqual a c true := by
  obtain ⟨i, -, rankA⟩ := exists_ranksAt ha
  obtain ⟨j, -, rankB⟩ := exists_ranksAt hb
  obtain ⟨k, -, rankC⟩ := exists_ranksAt hc
  rw [compares_iff_of_ranksAt rfl rankA rankB, decide_eq_true_eq] at hab
  rw [compares_iff_of_ranksAt rfl rankB rankC, decide_eq_true_eq] at hbc
  rw [compares_iff_of_ranksAt rfl rankA rankC, decide_eq_true_eq]
  exact Int.le_trans hab hbc

theorem greaterEqual_iff (ha : a.exactNumber? = some p) (hb : b.exactNumber? = some q)
    (truth : Bool) : Compares .greaterEqual a b truth ↔ Compares .lessEqual b a truth := by
  obtain ⟨i, -, rankA⟩ := exists_ranksAt ha
  obtain ⟨j, -, rankB⟩ := exists_ranksAt hb
  rw [compares_iff_of_ranksAt rfl rankA rankB, compares_iff_of_ranksAt rfl rankB rankA]

theorem less_iff (ha : a.exactNumber? = some p) (hb : b.exactNumber? = some q) (truth : Bool) :
    Compares .less a b truth ↔ Compares .greaterEqual a b !truth := by
  obtain ⟨i, -, rankA⟩ := exists_ranksAt ha
  obtain ⟨j, -, rankB⟩ := exists_ranksAt hb
  rw [compares_iff_of_ranksAt rfl rankA rankB, compares_iff_of_ranksAt rfl rankA rankB]
  cases truth <;> simp

theorem greater_iff (ha : a.exactNumber? = some p) (hb : b.exactNumber? = some q) (truth : Bool) :
    Compares .greater a b truth ↔ Compares .lessEqual a b !truth := by
  obtain ⟨i, -, rankA⟩ := exists_ranksAt ha
  obtain ⟨j, -, rankB⟩ := exists_ranksAt hb
  rw [compares_iff_of_ranksAt rfl rankA rankB, compares_iff_of_ranksAt rfl rankA rankB]
  cases truth <;> simp

/-- What is exactly in order is in order when it is rounded. -/
theorem lessEqual_of_le (ha : a.exactNumber? = some p) (hb : b.exactNumber? = some q)
    (le : p ≤ q) : Compares .lessEqual a b true := by
  obtain ⟨i, placeA, rankA⟩ := exists_ranksAt ha
  obtain ⟨j, placeB, rankB⟩ := exists_ranksAt hb
  rw [compares_iff_of_ranksAt rfl rankA rankB, decide_eq_true_eq]
  have places : i ≤ j := Int.not_lt.1 fun less => not_lt_of_ge le ((placeB.lt_iff placeA).2 less)
  exact Binary64.roundedPlace_mono places

theorem lessEqual_greaterEqual_of_equal (ha : a.exactNumber? = some p)
    (hb : b.exactNumber? = some q) (equal : Compares .equalEqual a b true) :
    Compares .lessEqual a b true ∧ Compares .greaterEqual a b true := by
  rw [compares_equalEqual_iff, looseEq_iff] at equal
  obtain ⟨same, left, right⟩ | ⟨other, -⟩ := equal
  · refine ⟨lessEqual_of_le left right le_rfl, ?_⟩
    exact (greaterEqual_iff ha hb true).2 (lessEqual_of_le right left le_rfl)
  · exact absurd (exists_exactNumber?_iff.1 ⟨p, ha⟩).1 other

end Laws

/-- A comparison of two numbers always gives a truth value, that of the numbers nearest to
integers, the even ones between two. Among all numbers but NaN, comparisons are a total
preorder and its negation and reverse, which never exchange what is exactly in order and agree
with equality; a NaN is in no order. -/
theorem comparisons_keep_exact_order :
    (∀ a b : Value, a.IsNumber → b.IsNumber → ∀ mark ∈ Punctuator.comparisons,
      (∃! truth, Compares mark a b truth) ∧
      (∀ n, a = .integer n → ∃ x : Binary64, x.IsNearest n.toInt ∧ ∀ truth,
        (Compares mark a b truth ↔ Compares mark (.float x) b truth) ∧
        (Compares mark b a truth ↔ Compares mark b (.float x) truth)) ∧
      (a = .float .nan ∨ b = .float .nan → Compares mark a b false)) ∧
    (∀ a b p q, a.exactNumber? = some p → b.exactNumber? = some q →
      (Compares .lessEqual a b true ∨ Compares .lessEqual b a true) ∧
      (∀ truth, Compares .greaterEqual a b truth ↔ Compares .lessEqual b a truth) ∧
      (∀ truth, Compares .less a b truth ↔ Compares .greaterEqual a b !truth) ∧
      (∀ truth, Compares .greater a b truth ↔ Compares .lessEqual a b !truth) ∧
      (p < q → Compares .lessEqual a b true ∧ Compares .greater a b false) ∧
      (Compares .equalEqual a b true →
        Compares .lessEqual a b true ∧ Compares .greaterEqual a b true)) ∧
    ∀ a b c p q r, a.exactNumber? = some p → b.exactNumber? = some q → c.exactNumber? = some r →
      Compares .lessEqual a b true → Compares .lessEqual b c true →
      Compares .lessEqual a c true := by
  refine ⟨fun a b numA numB mark mem => ⟨existsUnique_compares numA numB mem, ?_, ?_⟩,
    fun a b p q ha hb => ?_, fun a b c p q r => lessEqual_trans⟩
  · rintro n rfl
    exact ⟨_, Binary64.ofInt_isNearest n, fun truth => compares_integer_iff n numB mem⟩
  · exact fun nan => compares_nan numA numB nan mem
  · refine ⟨lessEqual_total ha hb, greaterEqual_iff ha hb, less_iff ha hb, greater_iff ha hb,
      fun less => ?_, lessEqual_greaterEqual_of_equal ha hb⟩
    have le := lessEqual_of_le ha hb less.le
    exact ⟨le, (greater_iff ha hb false).2 le⟩

/-- The integer behind the wide number is rounded to it, so the two tie and are not equal. -/
theorem comparisons_at_wideNumber :
    (∃ p q, (integer 9007199254740992).exactNumber? = some p ∧
      (integer 9007199254740993).exactNumber? = some q ∧ p < q) ∧
      Compares .lessEqual (integer 9007199254740992) (integer 9007199254740993) true ∧
      Compares .greater (integer 9007199254740992) (integer 9007199254740993) false ∧
      Compares .equalEqual (integer 9007199254740992) wideNumber true ∧
      Compares .lessEqual (integer 9007199254740992) wideNumber true ∧
      Compares .greaterEqual (integer 9007199254740992) wideNumber true ∧
      Compares .equalEqual (integer 9007199254740993) wideNumber false ∧
      Compares .lessEqual (integer 9007199254740993) wideNumber true ∧
      Compares .less (float .nan) wideNumber false := by
  obtain ⟨numbers, laws, transitive⟩ := comparisons_keep_exact_order
  have wide : wideNumber.exactNumber? = some (.ofRat (Int64.toInt 9007199254740992)) := by
    refine (Binary64.equalsInt64_iff (x := .ofBits 4845873199050653696)).1 ?_
    decide +kernel
  have below : ExactNumber.ofRat (Int64.toInt 9007199254740992) <
      .ofRat (Int64.toInt 9007199254740993) :=
    ExactNumber.ofRat_lt_ofRat.2 (Int.cast_lt.2 (by decide))
  obtain ⟨-, -, -, -, kept, -⟩ := laws (integer 9007199254740992) (integer 9007199254740993) _ _
    rfl rfl
  obtain ⟨-, -, -, -, -, agrees⟩ := laws (integer 9007199254740992) wideNumber _ _ rfl wide
  have equal : Compares .equalEqual (integer 9007199254740992) wideNumber true :=
    compares_equalEqual_iff.2 (by decide +kernel)
  have tie : Compares .lessEqual (integer 9007199254740993) (integer 9007199254740992) true :=
    (compares_iff_of_order? rfl rfl rfl).2 (by decide +kernel)
  exact ⟨⟨_, _, rfl, rfl, below⟩, (kept below).1, (kept below).2, equal, (agrees equal).1,
    (agrees equal).2, compares_equalEqual_iff.2 (by decide +kernel),
    transitive _ _ _ _ _ _ rfl rfl wide tie (agrees equal).1,
    (numbers (float .nan) wideNumber trivial trivial .less (by decide)).2.2 (.inl rfl)⟩

end Value

end ScopedExpr
