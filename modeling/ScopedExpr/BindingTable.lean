/-!
# Tables

A table binds keys to values, at most one value to a key. Only the bindings of keys
can be observed; the order of the entries is that of the last writes.
-/

namespace ScopedExpr

universe u v

structure Table (Key : Type u) (Val : Type v) where
  entries : List (Key × Val) := []

namespace Table

variable {Key : Type u} {Val : Type v} [DecidableEq Key]

def empty : Table Key Val := {}

def find? (t : Table Key Val) (key : Key) : Option Val :=
  (t.entries.find? fun entry => entry.1 = key).map Prod.snd

def contains (t : Table Key Val) (key : Key) : Bool := (t.find? key).isSome

def insert (t : Table Key Val) (key : Key) (value : Val) : Table Key Val :=
  ⟨(key, value) :: t.entries.filter fun entry => entry.1 ≠ key⟩

/-- The entries of a table with numbers as keys, in the order of the numbers. -/
def sorted {Val : Type v} (t : Table Nat Val) : List (Nat × Val) :=
  t.entries.mergeSort fun a b => a.1 ≤ b.1

@[simp] theorem find?_empty (key : Key) : (empty : Table Key Val).find? key = none := rfl

@[simp] theorem find?_insert_self (t : Table Key Val) (key : Key) (value : Val) :
    (t.insert key value).find? key = some value := by
  simp [find?, insert]

theorem find?_insert_of_ne (t : Table Key Val) {key other : Key} (value : Val)
    (h : other ≠ key) : (t.insert key value).find? other = t.find? other := by
  have keep : (t.entries.filter fun entry => entry.1 ≠ key).find? (fun entry => entry.1 = other) =
      t.entries.find? fun entry => entry.1 = other := by
    induction t.entries with
    | nil => rfl
    | cons entry rest ih =>
      by_cases hk : entry.1 = key
      · have ho : entry.1 ≠ other := fun e => h (e.symm.trans hk)
        simpa [hk, Ne.symm h] using ih
      · by_cases ho : entry.1 = other
        · simp [ho, h]
        · simpa [hk, ho] using ih
  simp [find?, insert, Ne.symm h] at keep ⊢
  rw [keep]

theorem find?_insert (t : Table Key Val) (key other : Key) (value : Val) :
    (t.insert key value).find? other = if other = key then some value else t.find? other := by
  split
  · next h => rw [h, find?_insert_self]
  · next h => exact find?_insert_of_ne t value h

theorem contains_insert (t : Table Key Val) (key other : Key) (value : Val) :
    (t.insert key value).contains other = (decide (other = key) || t.contains other) := by
  unfold contains
  rw [find?_insert]
  split <;> simp_all

end Table

end ScopedExpr
