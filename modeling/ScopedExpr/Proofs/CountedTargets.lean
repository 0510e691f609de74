import ScopedExpr.Proofs.ExpressionRecognition

/-!
# Targets that are counted

While an assignment to a field is read, its target is a node of its own over the object; in
the tree it is none. So a tree can be within the bound on heights and yet be refused: this
happens exactly when the target of one of its field assignments, counted as a node, lies too
deep. All other trees within both bounds are read.
-/

namespace ScopedExpr

namespace Expr

def parts : Expr → List Expr
  | literal _ | reference _ _ => []
  | grouping e => [e]
  | assign _ _ value => [value]
  | get object _ => [object]
  | set object _ value => [object, value]
  | unary _ operand => [operand]
  | binary left _ right | logical left _ right => [left, right]

/-- A node of the tree, so many steps below its root. -/
inductive LiesAt : Expr → Nat → Expr → Prop where
  | root {e} : LiesAt e 0 e
  | part {e p d n} (mem : p ∈ e.parts) (below : LiesAt p d n) : LiesAt e (d + 1) n

variable {e o n v : Expr} {name : Token} {d m : Nat} {ts : List Token}

theorem height_le_succ_iff : e.height ≤ m + 1 ↔ ∀ p ∈ e.parts, p.height ≤ m := by
  cases e <;> simp [height, parts]

/-- The target of a field is counted as one part more. -/
theorem countedHeight_le_succ_iff : e.countedHeight ≤ m + 1 ↔
    (∀ p ∈ e.parts, p.countedHeight ≤ m) ∧
      ∀ o name v, e = .set o name v → (get o name).countedHeight ≤ m := by
  cases e with
  | set o name v =>
    simp [countedHeight, parts]
    omega
  | _ => simp [countedHeight, parts]

/-- A tree is as high as its longest path of nodes, and a path that goes on from the target of
a field has the target on it. -/
theorem countedHeight_le_iff : e.countedHeight ≤ m ↔ e.height ≤ m ∧
    ∀ d o name v, e.LiesAt d (.set o name v) → d + 1 + (get o name).countedHeight ≤ m := by
  induction m generalizing e with
  | zero =>
    have positive := e.countedHeight_pos
    have positive' := e.height_pos
    constructor <;> intro h
    · omega
    · exact absurd h.1 (by omega)
  | succ m ih =>
    rw [countedHeight_le_succ_iff, height_le_succ_iff]
    constructor
    · rintro ⟨parts, targets⟩
      refine ⟨fun p mem => (ih.1 (parts p mem)).1, fun d o name v lies => ?_⟩
      cases lies with
      | root =>
        have within := targets o name v rfl
        omega
      | part mem below =>
        have within := (ih.1 (parts _ mem)).2 _ o name v below
        omega
    · rintro ⟨parts, targets⟩
      refine ⟨fun p mem => ih.2 ⟨parts p mem, fun d o name v below => ?_⟩, ?_⟩
      · have within := targets _ o name v (.part mem below)
        omega
      · rintro o name v rfl
        have within := targets 0 o name v .root
        omega

end Expr

/-- Whether a token can spell a part of a tree: a comment cannot, and the end cannot. -/
def TokenKind.isSpelling : TokenKind → Bool
  | .comment _ | .endOfText => false
  | _ => true

@[simp] theorem TokenKind.isSpelling_punctuator (mark : Punctuator) :
    (TokenKind.punctuator mark).isSpelling = true := rfl

@[simp] theorem TokenKind.isSpelling_keyword (word : Keyword) :
    (TokenKind.keyword word).isSpelling = true := rfl

@[simp] theorem TokenKind.isSpelling_identifier : TokenKind.identifier.isSpelling = true := rfl

theorem TokenKind.isSpelling_of_precedence? {k : TokenKind} {p : Nat}
    (h : k.precedence? = some p) : k.isSpelling = true := by
  cases k with
  | comment c => cases h
  | endOfText => cases h
  | _ => rfl

theorem Value.isSpelling_tokenKind (v : Value) : v.tokenKind.isSpelling = true := by
  rcases v with _ | (_ | _) | _ | _ | _ <;> rfl

theorem Expr.Spells.isSpelling {e : Expr} {ts : List Token} (spelled : e.Spells ts)
    (wf : e.WellFormed) : ∀ t ∈ ts, t.kind.isSpelling = true := by
  induction spelled with
  | literal kind => simp [kind, Value.isSpelling_tokenKind]
  | grouping isOpening isClosing inner ih =>
    simpa [isOpening, isClosing, or_imp, forall_and] using ih wf
  | reference =>
    have named : _ = TokenKind.identifier := wf
    simp [named]
  | assign isEqual value ih =>
    simpa [isEqual, wf.1] using ih wf.2
  | get isDot object ih =>
    obtain ⟨-, objectFormed, named⟩ := wf
    simpa [isDot, named, or_imp, forall_and] using ih objectFormed
  | set isDot isEqual object value objectPlain valuePlain =>
    obtain ⟨-, objectFormed, named, valueFormed⟩ := wf
    have plain := And.intro (objectPlain objectFormed) (valuePlain valueFormed)
    simpa [isDot, isEqual, named, or_imp, forall_and] using plain
  | unary operand ih =>
    obtain ⟨is, -, operandFormed⟩ := wf
    have plain := ih operandFormed
    obtain is | is | is := is <;> simpa [is] using plain
  | binary left right leftPlain rightPlain | logical left right leftPlain rightPlain =>
    obtain ⟨p, is, -, -, -, leftFormed, rightFormed⟩ := wf
    have plain := And.intro (leftPlain leftFormed) (rightPlain rightFormed)
    simpa [TokenKind.isSpelling_of_precedence? is, or_imp, forall_and] using plain

theorem TokenReader.rest_ofTokens_of_isSpelling {ts : List Token} {stop : Token}
    (spelling : ∀ t ∈ ts, t.kind.isSpelling = true) (isEnd : stop.kind = .endOfText) :
    (ofTokens (ts ++ [stop])).rest = ts := by
  have code : ∀ t ∈ ts, isCode t = true := by
    intro t mem
    have is := spelling t mem
    unfold TokenKind.isSpelling at is
    unfold isCode
    split at is <;> simp_all
  have noEnd : ∀ t ∈ ts, t.kind ≠ .endOfText := by
    intro t mem isEnd
    have is := spelling t mem
    rw [isEnd] at is
    cases is
  rw [rest_ofTokens_append noEnd, rest_ofTokens_end isEnd, List.append_nil,
    List.filter_eq_self.2 code]

namespace Reading

theorem run_joinHeights_of_lt {a b : Nat} {place : Token} {r : TokenReader}
    (h : maxNesting < max a b + 1) :
    (joinHeights a b place).run r = .error ⟨.nestedTooDeeply, place⟩ r := by
  rw [run_joinHeights, if_pos h]

theorem run_wholeExpression_of_error {r r' : TokenReader} {err : ParseError}
    (h : (assignment maxNesting).run r = .error err r') :
    wholeExpression.run r = .error err r' := by
  have read : (assignment maxNesting >>= fun t => pure t.expr).run r = .error err r' :=
    run_bind_eq_error_iff.2 (.inl h)
  exact run_bind_eq_error_iff.2 (.inl read)

end Reading

namespace Expr

open Reading

variable {o v : Expr} {name stop : Token} {ts : List Token}

/-- The target of a field is as high as the bound, and all else is within the bounds. -/
theorem ofTokens_of_tall_target (wf : (set o name v).WellFormed)
    (spelled : (set o name v).Spells ts)
    (ids : (set o name v).referenceIds = List.range' 0 (set o name v).references.length)
    (isEnd : stop.kind = .endOfText) (within : (set o name v).entries < maxNesting)
    (tall : (get o name).countedHeight = maxNesting) (low : v.countedHeight < maxNesting) :
    ∃ equals ∈ ts, equals.kind = .punctuator .equal ∧
      Expr.ofTokens (ts ++ [stop]) = .error ⟨.nestedTooDeeply, equals⟩ := by
  have plain := TokenReader.rest_ofTokens_of_isSpelling (spelled.isSpelling wf) isEnd
  obtain ⟨targetIds, valueIds⟩ := numbers_of_two (a := get o name) (b := v) rfl ids
  obtain ⟨level, objectFormed, named, valueFormed⟩ := wf
  simp only [entries] at within
  cases spelled with
  | @set _ _ dot equals _ ls us isDot isEqual object value =>
    have targetRead : IsRead (get o name) :=
      isRead_of_wellFormed (e := get o name) ⟨level, objectFormed, named⟩
    have target : Readable (get o name) (maxNesting - 2 + 1) (ls ++ [dot, name]) 0 :=
      ⟨.get isDot object, by simp only [entries]; omega, targetIds, tall.le⟩
    have operand : Readable v (maxNesting - 2) us (0 + (get o name).references.length) :=
      ⟨value, by omega, valueIds, low.le⟩
    have climbs := targetRead.climbs 0 (Nat.zero_le _) (by simp [Expr.level])
    let reader := TokenReader.ofTokens (ls ++ dot :: name :: equals :: us ++ [stop])
    have refused := (run_assignment_of_parts climbs (isRead_of_wellFormed valueFormed).assigns rfl
      isEqual target operand [] reader.stop (.nil 1) (by rintro _ _ ⟨⟩)).trans
        (run_bind_eq_error_iff.2 (.inl (run_joinHeights_of_lt (by omega))))
    have start : reader = ⟨ls ++ [dot, name] ++ equals :: (us ++ []), reader.stop, 0⟩ := by
      have tokens : reader.rest = ls ++ [dot, name] ++ equals :: (us ++ []) := by
        rw [plain, List.append_nil, List.append_assoc]
        rfl
      rw [← tokens]
      rfl
    rw [← start] at refused
    exact ⟨equals, by simp, isEqual, ofTokens_eq_error.2 ⟨_, run_wholeExpression_of_error refused⟩⟩

end Expr

/-- Within both bounds a tree of the grammar is read from its tokens exactly when no field is
assigned whose target, counted as a node, lies too deep; so a tree without such assignments is
always read. If the target alone is as high as the bound, its equals sign is blamed. -/
theorem within_bounds_read_iff {e : Expr} {ts : List Token} {stop : Token} (wf : e.WellFormed)
    (spelled : e.Spells ts) (ids : e.referenceIds = List.range e.references.length)
    (isEnd : stop.kind = .endOfText) (height : e.height ≤ maxNesting)
    (entries : e.entries < maxNesting) :
    (Expr.ofTokens (ts ++ [stop]) = .ok e ↔
      ∀ d o name v, e.LiesAt d (.set o name v) →
        d + 1 + (Expr.get o name).countedHeight ≤ maxNesting) ∧
    ∀ o name v, e = .set o name v → (Expr.get o name).countedHeight = maxNesting →
      v.countedHeight < maxNesting → ∃ equals ∈ ts, equals.kind = .punctuator .equal ∧
        Expr.ofTokens (ts ++ [stop]) = .error ⟨.nestedTooDeeply, equals⟩ := by
  have plain := TokenReader.rest_ofTokens_of_isSpelling (spelled.isSpelling wf) isEnd
  rw [List.range_eq_range'] at ids
  constructor
  · constructor
    · intro read
      have bounded := (readable_of_ofTokens read).2.bounded
      exact (Expr.countedHeight_le_iff.1 bounded).2
    · intro targets
      have bounded := Expr.countedHeight_le_iff.2 ⟨height, targets⟩
      exact ofTokens_of_readable wf ⟨plain.symm ▸ spelled, by omega, ids, bounded⟩
  · rintro o name v rfl tall low
    exact Expr.ofTokens_of_tall_target wf spelled ids isEnd entries tall low

def propertyName : Token := ⟨.identifier, "p", 1⟩

def equalsSign : Token := ⟨.punctuator .equal, "=", 1⟩

/-- The tree of `x.p.p`, with so many properties. -/
def propertiesOfX : Nat → Expr
  | 0 => .reference 0 ⟨.identifier, "x", 1⟩
  | n + 1 => .get (propertiesOfX n) propertyName

def propertyTokens : Nat → List Token
  | 0 => [⟨.identifier, "x", 1⟩]
  | n + 1 => propertyTokens n ++ [⟨.punctuator .dot, ".", 1⟩, propertyName]

/-- The tree of `x.p.p.p = 1`, with so many properties in its object. -/
def fieldOfX (n : Nat) : Expr := .set (propertiesOfX n) propertyName (.literal (.integer 1))

def fieldTokens (n : Nat) : List Token :=
  propertyTokens n ++ ⟨.punctuator .dot, ".", 1⟩ :: propertyName :: equalsSign ::
    [⟨.integer 1, "1", 1⟩]

section Field

variable (n : Nat)

theorem spells_propertyTokens : (propertiesOfX n).Spells (propertyTokens n) := by
  induction n with
  | zero => exact .reference
  | succ n ih => exact .get rfl ih

theorem wellFormed_propertiesOfX :
    (propertiesOfX n).level = 8 ∧ (propertiesOfX n).WellFormed := by
  induction n with
  | zero => exact ⟨rfl, rfl⟩
  | succ n ih => exact ⟨rfl, ih.1, ih.2, rfl⟩

theorem measures_propertiesOfX :
    (propertiesOfX n).countedHeight = n + 1 ∧ (propertiesOfX n).entries = 1 ∧
      (propertiesOfX n).references = [(0, ⟨.identifier, "x", 1⟩)] := by
  induction n with
  | zero => exact ⟨rfl, rfl, rfl⟩
  | succ n ih => exact ⟨congrArg (· + 1) ih.1, ih.2⟩

theorem kind_ne_equal_of_mem_propertyTokens :
    ∀ t ∈ propertyTokens n, t.kind ≠ .punctuator .equal := by
  induction n with
  | zero => simp [propertyTokens]
  | succ n ih => simpa [propertyTokens, propertyName, or_imp, forall_and] using ih

theorem wellFormed_fieldOfX : (fieldOfX n).WellFormed :=
  ⟨(wellFormed_propertiesOfX n).1, (wellFormed_propertiesOfX n).2, rfl, trivial⟩

theorem spells_fieldTokens : (fieldOfX n).Spells (fieldTokens n) :=
  .set rfl rfl (spells_propertyTokens n) (.literal rfl)

theorem referenceIds_fieldOfX :
    (fieldOfX n).referenceIds = List.range (fieldOfX n).references.length := by
  simp [fieldOfX, Expr.referenceIds, Expr.references, measures_propertiesOfX]

theorem height_fieldOfX : (fieldOfX n).height ≤ n + 2 := by
  have object := (propertiesOfX n).height_le_countedHeight
  simp only [fieldOfX, Expr.height, measures_propertiesOfX] at object ⊢
  omega

theorem entries_fieldOfX : (fieldOfX n).entries = 2 := by
  simp [fieldOfX, Expr.entries, measures_propertiesOfX]

theorem eq_equalsSign_of_mem_fieldTokens {t : Token} (mem : t ∈ fieldTokens n)
    (isEqual : t.kind = .punctuator .equal) : t = equalsSign := by
  rcases List.mem_append.1 mem with object | rest
  · exact absurd isEqual (kind_ne_equal_of_mem_propertyTokens n t object)
  · simp only [List.mem_cons, List.not_mem_nil, or_false] at rest
    rcases rest with rfl | rfl | rfl | rfl
    · cases isEqual
    · cases isEqual
    · rfl
    · cases isEqual

end Field

/-- One property less than the bound takes. -/
theorem field_below_bound_read :
    (fieldOfX 1021).height ≤ maxNesting ∧ (fieldOfX 1021).entries < maxNesting ∧
      Expr.ofTokens (fieldTokens 1021 ++ [⟨.endOfText, "", 1⟩]) = .ok (fieldOfX 1021) := by
  have height : (fieldOfX 1021).height ≤ maxNesting :=
    (height_fieldOfX 1021).trans (by decide)
  have entries : (fieldOfX 1021).entries < maxNesting := by
    rw [entries_fieldOfX]
    decide
  have counted : (fieldOfX 1021).countedHeight ≤ maxNesting := by
    rw [fieldOfX, Expr.countedHeight, (measures_propertiesOfX 1021).1]
    decide
  refine ⟨height, entries, ?_⟩
  exact (within_bounds_read_iff (wellFormed_fieldOfX _) (spells_fieldTokens _)
    (referenceIds_fieldOfX _) rfl height entries).1.2 (Expr.countedHeight_le_iff.1 counted).2

/-- The tree of the highest field is within both bounds, and its tokens are refused. -/
theorem highest_field_refused :
    (fieldOfX 1022).WellFormed ∧ (fieldOfX 1022).Spells (fieldTokens 1022) ∧
      (fieldOfX 1022).referenceIds = List.range (fieldOfX 1022).references.length ∧
      (fieldOfX 1022).height ≤ maxNesting ∧ (fieldOfX 1022).entries < maxNesting ∧
      Expr.ofTokens (fieldTokens 1022 ++ [⟨.endOfText, "", 1⟩]) =
        .error ⟨.nestedTooDeeply, equalsSign⟩ := by
  have ids := referenceIds_fieldOfX 1022
  have entries : (fieldOfX 1022).entries < maxNesting := by
    rw [entries_fieldOfX]
    decide
  have target : (Expr.get (propertiesOfX 1022) propertyName).countedHeight = maxNesting := by
    rw [Expr.countedHeight, (measures_propertiesOfX 1022).1]
    rfl
  have isEnd : (⟨.endOfText, "", 1⟩ : Token).kind = .endOfText := rfl
  obtain ⟨equals, mem, isEqual, refused⟩ := Expr.ofTokens_of_tall_target
    (wellFormed_fieldOfX 1022) (spells_fieldTokens 1022) (List.range_eq_range' ▸ ids) isEnd
    entries target (by decide)
  rw [eq_equalsSign_of_mem_fieldTokens 1022 mem isEqual] at refused
  exact ⟨wellFormed_fieldOfX _, spells_fieldTokens _, ids, height_fieldOfX _, entries, refused⟩

end ScopedExpr
