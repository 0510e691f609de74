import ScopedExpr.Binary64

/-!
# Arithmetic of binary64 numbers

Each operation computes the exact result in units of `2 ^ -1074` and rounds it once.
An exact zero takes the sign that the standard gives it: of a sum, minus only when
both terms are; of a product or quotient, the product of the signs.
-/

namespace ScopedExpr.Binary64

def neg : Binary64 → Binary64
  | nan => nan
  | infinite s => infinite (!s)
  | finite s m => finite (!s) m

def add : Binary64 → Binary64 → Binary64
  | nan, _ => nan
  | _, nan => nan
  | infinite s, infinite t => if s = t then infinite s else nan
  | infinite s, finite _ _ => infinite s
  | finite _ _, infinite t => infinite t
  | finite s m, finite t n =>
    let sum := signed s m.units + signed t n.units
    if sum = 0 then zero (s && t) else nearest (sum < 0) sum.natAbs 1

def sub (x y : Binary64) : Binary64 := x.add y.neg

def isZero (x : Binary64) : Bool := x.units? == some 0

/-- The rounded product; an infinity times a zero is a NaN. -/
def mul : Binary64 → Binary64 → Binary64
  | nan, _ => nan
  | _, nan => nan
  | infinite s, infinite t => infinite (s != t)
  | infinite s, finite t n => if n.units = 0 then nan else infinite (s != t)
  | finite s m, infinite t => if m.units = 0 then nan else infinite (s != t)
  | finite s m, finite t n => nearest (s != t) (m.units * n.units) Magnitude.unitsPerOne

/-- The rounded quotient; a zero divisor gives an infinity, or a NaN for zero by zero. -/
def div : Binary64 → Binary64 → Binary64
  | nan, _ => nan
  | _, nan => nan
  | infinite _, infinite _ => nan
  | infinite s, finite t _ => infinite (s != t)
  | finite s _, infinite t => zero (s != t)
  | finite s m, finite t n =>
    if n.units = 0 then if m.units = 0 then nan else infinite (s != t)
    else nearest (s != t) (m.units * Magnitude.unitsPerOne) n.units

end ScopedExpr.Binary64
