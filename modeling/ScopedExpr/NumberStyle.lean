import ScopedExpr.ShortestDecimal

/-!
# Styles of written numbers

A style says how a binary64 number is written: which numbers are given in full,
where positional notation ends, how a tie between two shortest decimals is broken,
and the words for infinities and NaN. The library uses two styles, one for values
shown to a reader and one for token records.
-/

namespace ScopedExpr

structure NumberStyle where
  /-- Whole numbers are written with every digit of their exact value. -/
  wholeInFull : Bool
  /-- The choice between two shortest decimals at the same distance. -/
  tie : TieRule
  /-- A number whose first digit stands for this power of ten is written positionally. -/
  positional : Int → Bool
  nanWord : List Char
  infinityWord : Bool → List Char

/-- Digits around the decimal point; the first digit stands for `10 ^ leading`. There
is a digit on both sides of the point. -/
def positionalNotation (digits : List Char) (leading : Int) : List Char :=
  match leading with
  | .negSucc below => '0' :: '.' :: (List.replicate below '0' ++ digits)
  | .ofNat above =>
    let whole := digits.take (above + 1)
    let fraction := digits.drop (above + 1)
    whole ++ List.replicate (above + 1 - whole.length) '0' ++
      '.' :: (if fraction.isEmpty then ['0'] else fraction)

/-- One digit, the others after a point, and the power of ten with its sign. -/
def scientificNotation (digits : List Char) (leading : Int) : List Char :=
  let mantissa :=
    match digits with
    | first :: rest@(_ :: _) => first :: '.' :: rest
    | single => single
  let power :=
    match leading with
    | .ofNat e => '+' :: natNumeral e
    | .negSucc e => '-' :: natNumeral (e + 1)
  mantissa ++ 'e' :: power

namespace NumberStyle

def writeMagnitude (style : NumberStyle) (m : Magnitude) : List Char :=
  if m.units = 0 then ['0', '.', '0']
  else if style.wholeInFull ∧ m.units % Magnitude.unitsPerOne = 0 then
    natNumeral (m.units / Magnitude.unitsPerOne) ++ ['.', '0']
  else
    let x := m.shortest style.tie
    let digits := natNumeral x.significand
    let leading := x.exponent + digits.length - 1
    if style.positional leading then positionalNotation digits leading
    else scientificNotation digits leading

def write (style : NumberStyle) : Binary64 → List Char
  | .nan => style.nanWord
  | .infinite negative => style.infinityWord negative
  | .finite negative m => if negative then '-' :: style.writeMagnitude m else style.writeMagnitude m

/-- Values are shown positionally, whole numbers in full, and of two equally near
shortest decimals the larger is taken. -/
def shown : NumberStyle where
  wholeInFull := true
  tie := .upward
  positional := fun _ => true
  nanWord := "NaN".toList
  infinityWord := fun negative => if negative then "-inf".toList else "inf".toList

/-- Records write numbers positionally from `10 ^ -5` up to sixteen digits before
the point, break ties to the even digit, and have no word for a number that is not
finite. -/
def record : NumberStyle where
  wholeInFull := false
  tie := .toEven
  positional := fun leading => -5 ≤ leading ∧ leading ≤ 15
  nanWord := "null".toList
  infinityWord := fun _ => "null".toList

end NumberStyle

end ScopedExpr
