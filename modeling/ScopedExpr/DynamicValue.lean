import ScopedExpr.BinaryArithmetic
import ScopedExpr.NumberStyle

/-!
# Values

A value is a truth value, nothing, a 64-bit integer, a binary64 number or a text.
There are two equalities: one between values of the same kind, and one that also
compares an integer with a number by their exact values.
-/

namespace ScopedExpr

def int64? (n : Int) : Option Int64 :=
  if Int64.minValue.toInt ≤ n ∧ n ≤ Int64.maxValue.toInt then some (Int64.ofInt n) else none

theorem toInt_of_int64? {n : Int} {i : Int64} (h : int64? n = some i) : i.toInt = n := by
  unfold int64? at h
  split at h
  · next range =>
    cases h
    exact Int64.toInt_ofInt_of_le range.1 (Int.lt_add_one_of_le range.2)
  · cases h

@[simp] theorem int64?_toInt (i : Int64) : int64? i.toInt = some i := by
  have low := i.minValue_le_toInt
  have high := i.toInt_le
  rw [int64?, if_pos ⟨low, high⟩, Int64.ofInt_toInt]

inductive Value where
  | none
  | bool (truth : Bool)
  | integer (number : Int64)
  | float (number : Binary64)
  | text (content : String)
deriving DecidableEq

namespace Value

/-- Only false and nothing count as false. -/
def isTruthy : Value → Bool
  | .none => false
  | .bool b => b
  | _ => true

def kindName : Value → String
  | .none => "None"
  | .bool _ => "bool"
  | .integer _ => "int"
  | .float _ => "float"
  | .text _ => "str"

/-- A value as it is shown; text is shown without quotes. -/
def display : Value → String
  | .none => "None"
  | .bool true => "True"
  | .bool false => "False"
  | .integer n => String.ofList (intNumeral n.toInt)
  | .float x => String.ofList (NumberStyle.shown.write x)
  | .text s => s

def toBinary64? : Value → Option Binary64
  | .integer n => some (.ofInt n.toInt)
  | .float x => some x
  | _ => Option.none

/-- Equality of values of one kind; numbers compare as numbers. -/
def strictEq : Value → Value → Bool
  | .none, .none => true
  | .bool a, .bool b => a == b
  | .integer a, .integer b => a == b
  | .float x, .float y => x.numEq y
  | .text s, .text t => s == t
  | _, _ => false

/-- Equality that also holds between an integer and a number of exactly that value. -/
def looseEq : Value → Value → Bool
  | .integer n, .float x => x.equalsInt64 n
  | .float x, .integer n => x.equalsInt64 n
  | a, b => a.strictEq b

end Value

end ScopedExpr
