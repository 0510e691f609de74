import ScopedExpr.Proofs.CursorSteps

/-!
# Texts and their bytes

A source is scanned byte by byte, and every character past ASCII is several bytes of which
none is that of an ASCII character. So what is looked for byte by byte, the end of a name or
of a line, a quote or a fence, is found where it stands among the characters.
-/

namespace ScopedExpr

/-- The bytes of a text, each seen as the character with its number. -/
def byteChars (text : List Char) : List Char :=
  (text.flatMap String.utf8EncodeChar).map Char.ofUInt8

/-- The text before and behind a place among its bytes, if the place is between characters. -/
def splitAtByte? : Nat → List Char → Option (List Char × List Char)
  | 0, text => some ([], text)
  | _ + 1, [] => none
  | n + 1, c :: text =>
    if c.utf8Size ≤ n + 1 then
      (splitAtByte? (n + 1 - c.utf8Size) text).map fun (before, behind) => (c :: before, behind)
    else none

/-- What is told of a character is told of each of its bytes: beyond ASCII it is the same of
all characters. -/
def Bytewise (p : Char → Bool) : Prop := ∀ c d : Char, 127 < c.val → 127 < d.val → p c = p d

variable {c d : Char} {text : List Char} {p : Char → Bool}

@[simp] theorem byteChars_append (a b : List Char) :
    byteChars (a ++ b) = byteChars a ++ byteChars b := by
  simp [byteChars]

theorem byteChars_cons (c : Char) (text : List Char) :
    byteChars (c :: text) = byteChars [c] ++ byteChars text :=
  byteChars_append [c] text

theorem length_byteChars_singleton (c : Char) : (byteChars [c]).length = c.utf8Size := by
  simp [byteChars]

theorem byteChars_of_ascii (h : c.val ≤ 127) : byteChars [c] = [c] := by
  have single := String.utf8EncodeChar_eq_singleton (Char.utf8Size_eq_one_iff.2 h)
  have same : Char.ofUInt8 c.val.toUInt8 = c := by
    have small : c.val.toNat ≤ 127 := UInt32.le_iff_toNat_le.1 h
    apply Char.ext
    apply UInt32.toNat.inj
    change c.val.toUInt8.toUInt32.toNat = c.val.toNat
    rw [UInt8.toNat_toUInt32, UInt32.toNat_toUInt8]
    omega
  rw [byteChars, List.flatMap_singleton, single, List.map_singleton, same]

theorem byteChars_cons_of_ascii (h : c.val ≤ 127) (text : List Char) :
    byteChars (c :: text) = c :: byteChars text := by
  rw [byteChars_cons, byteChars_of_ascii h]
  rfl

theorem length_byteChars_concat (h : c.val ≤ 127) (text : List Char) :
    (byteChars (text ++ [c])).length = (byteChars text).length + 1 := by
  rw [byteChars_append, byteChars_of_ascii h, List.length_append, List.length_singleton]

theorem lt_of_mem_utf8EncodeChar {b : UInt8} (h : 127 < c.val)
    (mem : b ∈ String.utf8EncodeChar c) : 127 < b.toNat := by
  have wide : 127 < c.val.toNat := UInt32.lt_iff_toNat_lt.1 h
  revert mem
  fun_cases String.utf8EncodeChar c
  all_goals simp only [List.mem_cons, List.not_mem_nil, or_false]
  · omega
  · rintro (rfl | rfl) <;> simp only [UInt8.toNat_ofNat'] <;> omega
  · rintro (rfl | rfl | rfl) <;> simp only [UInt8.toNat_ofNat'] <;> omega
  · rintro (rfl | rfl | rfl | rfl) <;> simp only [UInt8.toNat_ofNat'] <;> omega

theorem wide_of_mem_byteChars (h : 127 < c.val) (mem : d ∈ byteChars [c]) : 127 < d.val := by
  rw [byteChars, List.flatMap_singleton, List.mem_map] at mem
  obtain ⟨b, mem, rfl⟩ := mem
  apply UInt32.lt_iff_toNat_lt.2
  change 127 < b.toUInt32.toNat
  rw [UInt8.toNat_toUInt32]
  exact lt_of_mem_utf8EncodeChar h mem

theorem eq_of_mem_byteChars (h : Bytewise p) (mem : d ∈ byteChars [c]) : p d = p c := by
  by_cases ascii : c.val ≤ 127
  · rw [byteChars_of_ascii ascii, List.mem_singleton] at mem
    rw [mem]
  · have wide : 127 < c.val := UInt32.not_le.1 ascii
    exact h d c (wide_of_mem_byteChars wide mem) wide

theorem byteChars_singleton_ne_nil (c : Char) : byteChars [c] ≠ [] := by
  intro none
  have length := length_byteChars_singleton c
  have pos := c.utf8Size_pos
  rw [none, List.length_nil] at length
  omega

/-- An ASCII character comes first among the bytes only where it comes first in the text. -/
theorem head_of_byteChars_eq_cons {q : Char} {bytes : List Char} (ascii : q.val ≤ 127)
    (h : byteChars text = q :: bytes) :
    ∃ behind, text = q :: behind ∧ bytes = byteChars behind := by
  cases text with
  | nil => cases h
  | cons c text =>
    by_cases narrow : c.val ≤ 127
    · rw [byteChars_cons_of_ascii narrow] at h
      cases h
      exact ⟨text, rfl, rfl⟩
    · obtain ⟨d, ds, first⟩ := List.exists_cons_of_ne_nil (byteChars_singleton_ne_nil c)
      rw [byteChars_cons, first] at h
      have same : d = q := (List.cons.inj h).1
      have wide := wide_of_mem_byteChars (UInt32.not_le.1 narrow) (first ▸ List.mem_cons_self)
      rw [same] at wide
      exact absurd ascii (UInt32.not_le.2 wide)

namespace Bytewise

variable {p q : Char → Bool} {c : Char}

theorem of_ascii (h : ∀ c : Char, 127 < c.val → p c = false) : Bytewise p := by
  intro c d wide wide'
  rw [h c wide, h d wide']

theorem not (h : Bytewise p) : Bytewise fun c => !p c := fun c d wide wide' =>
  congrArg Bool.not (h c d wide wide')

theorem beq_of_wide {q : Char} (ascii : q.val ≤ 127) (wide : 127 < c.val) : (c == q) = false :=
  beq_eq_false_iff_ne.2 fun same => absurd ascii (UInt32.not_le.2 (same ▸ wide))

theorem beq {q : Char} (ascii : q.val ≤ 127) : Bytewise (· == q) :=
  of_ascii fun _ wide => beq_of_wide ascii wide

theorem bne {q : Char} (ascii : q.val ≤ 127) : Bytewise (· != q) := (beq ascii).not

theorem not_le_of_wide {high : UInt32} (ascii : high ≤ 127) (wide : 127 < c.val) :
    ¬ c.val ≤ high := fun le => UInt32.not_lt.2 (UInt32.le_trans le ascii) wide

theorem isDigit_of_wide (wide : 127 < c.val) : c.isDigit = false := by
  rw [← Bool.not_eq_true]
  intro digit
  have low := of_decide_eq_true (Bool.and_eq_true_iff.1 digit).2
  exact not_le_of_wide (by decide) wide low

theorem isAlpha_of_wide (wide : 127 < c.val) : c.isAlpha = false := by
  rw [← Bool.not_eq_true]
  intro letter
  rcases Bool.or_eq_true_iff.1 letter with upper | lower
  · exact not_le_of_wide (by decide) wide (of_decide_eq_true upper).2
  · have low := of_decide_eq_true (Bool.and_eq_true_iff.1 lower).2
    exact not_le_of_wide (by decide) wide low

theorem isDigit : Bytewise Char.isDigit := of_ascii fun _ => isDigit_of_wide

theorem isNumberChar : Bytewise isNumberChar := of_ascii fun _ wide =>
  Bool.or_eq_false_iff.2 ⟨isDigit_of_wide wide, beq_of_wide (by decide) wide⟩

theorem isNameChar : Bytewise isNameChar := of_ascii fun _ wide =>
  Bool.or_eq_false_iff.2
    ⟨Bool.or_eq_false_iff.2 ⟨isAlpha_of_wide wide, isDigit_of_wide wide⟩,
      beq_of_wide (by decide) wide⟩

end Bytewise

theorem takeWhile_byteChars (h : Bytewise p) (text : List Char) :
    (byteChars text).takeWhile p = byteChars (text.takeWhile p) := by
  induction text with
  | nil => rfl
  | cons c text ih =>
    rw [byteChars_cons]
    cases holds : p c with
    | true =>
      have all : ∀ d ∈ byteChars [c], p d = true := fun d mem =>
        (eq_of_mem_byteChars h mem).trans holds
      rw [List.takeWhile_append_of_pos all, List.takeWhile_cons_of_pos holds,
        byteChars_cons c (text.takeWhile p), ih]
    | false =>
      obtain ⟨d, ds, bytes⟩ := List.exists_cons_of_ne_nil (byteChars_singleton_ne_nil c)
      have stops : ¬ p d = true := by
        rw [eq_of_mem_byteChars h (bytes ▸ List.mem_cons_self), holds]
        exact Bool.false_ne_true
      have stops' : ¬ p c = true := by simp [holds]
      rw [bytes, List.cons_append, List.takeWhile_cons_of_neg stops,
        List.takeWhile_cons_of_neg stops']
      rfl

theorem newlines_byteChars (text : List Char) : newlines (byteChars text) = newlines text := by
  induction text with
  | nil => rfl
  | cons c text ih =>
    have one : newlines (byteChars [c]) = newlines [c] := by
      by_cases ascii : c.val ≤ 127
      · rw [byteChars_of_ascii ascii]
      · have wide : 127 < c.val := UInt32.not_le.1 ascii
        have free : ∀ d : Char, 127 < d.val → d ≠ '\n' := by
          rintro d large rfl
          exact absurd large (by decide)
        have none : newlines (byteChars [c]) = 0 := List.count_eq_zero.2 fun mem =>
          free _ (wide_of_mem_byteChars wide mem) rfl
        rw [none, newlines, List.count_singleton, if_neg (by simpa using free c wide)]
    rw [byteChars_cons, newlines_append, ih, one, ← newlines_append]
    rfl

/-- No fence begins at a character that is no mark of one. -/
theorem splitAtFence?_append (free : ∀ d ∈ text, d ≠ '#') (rest : List Char) :
    splitAtFence? (text ++ rest) =
      (splitAtFence? rest).map fun (body, behind) => (text ++ body, behind) := by
  induction text with
  | nil => simp
  | cons c text ih =>
    rw [List.forall_mem_cons] at free
    rw [List.cons_append, splitAtFence?, ih free.2, Option.map_map]
    · rfl
    · rintro _ rfl
      exact absurd rfl free.1

theorem splitAtFence?_byteChars (text : List Char) : splitAtFence? (byteChars text) =
    (splitAtFence? text).map fun (body, behind) => (byteChars body, byteChars behind) := by
  fun_induction splitAtFence? text with
  | case1 => rfl
  | case2 rest =>
    rw [byteChars_cons_of_ascii (by decide), byteChars_cons_of_ascii (by decide)]
    rfl
  | case3 c rest noFence ih =>
    by_cases ascii : c.val ≤ 127
    · rw [byteChars_cons_of_ascii ascii, splitAtFence?, ih]
      · cases splitAtFence? rest with
        | none => rfl
        | some parts =>
          exact congrArg some (Prod.ext (byteChars_cons_of_ascii ascii parts.1).symm rfl)
      · rintro bytes rfl more
        obtain ⟨behind, rfl, -⟩ := head_of_byteChars_eq_cons (by decide) more
        exact noFence behind rfl rfl
    · have free : ∀ d ∈ byteChars [c], d ≠ '#' := by
        rintro d mem rfl
        exact absurd (wide_of_mem_byteChars (UInt32.not_le.1 ascii) mem) (by decide)
      rw [byteChars_cons, splitAtFence?_append free, ih]
      cases splitAtFence? rest with
      | none => rfl
      | some parts => exact congrArg some (Prod.ext (byteChars_cons c parts.1).symm rfl)

theorem splitAtByte?_append (a b : List Char) :
    splitAtByte? (byteChars a).length (a ++ b) = some (a, b) := by
  induction a with
  | nil => cases b <;> rfl
  | cons c a ih =>
    have size : (byteChars (c :: a)).length = (byteChars a).length + c.utf8Size := by
      rw [byteChars_cons, List.length_append, length_byteChars_singleton, Nat.add_comm]
    obtain ⟨n, pos⟩ := Nat.exists_eq_succ_of_ne_zero (Nat.ne_of_gt c.utf8Size_pos)
    have enough : c.utf8Size ≤ (byteChars a).length + n + 1 := by omega
    have left : (byteChars a).length + n + 1 - c.utf8Size = (byteChars a).length := by omega
    rw [size, pos, Nat.add_succ, List.cons_append, splitAtByte?, if_pos enough, left, ih]
    rfl

theorem length_byteChars (text : List Char) :
    (byteChars text).length = (String.ofList text).utf8ByteSize := by
  rw [byteChars, List.length_map, ← String.size_toByteArray]
  simp [List.utf8Encode]

theorem length_le_length_byteChars (text : List Char) : text.length ≤ (byteChars text).length := by
  induction text with
  | nil => exact Nat.le_refl 0
  | cons c text ih =>
    have pos := c.utf8Size_pos
    rw [byteChars_cons, List.length_append, length_byteChars_singleton, List.length_cons]
    omega

end ScopedExpr
