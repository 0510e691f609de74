import ScopedExpr.AttachedMark
import ScopedExpr.ShapelessCharacter

/-!
# Quoted names

The name of a file as a message shows it. It stands between double quotes, and whatever
could end the quotation, break the line or escape the eye of a reader is written out, so
that two names never look alike by accident: quotes and backslashes behind a backslash,
three blanks and the NUL as letters, and every other character without a shape of its own
by its code point. An attached mark is written out wherever it stands, since it would
change the look of the character before it.
-/

namespace ScopedExpr.QuotedName

def codePoint (c : Char) : List Char :=
  ['\\', 'u', '\x7b'] ++ Nat.toDigits 16 c.toNat ++ ['\x7d']

/-- The letter that stands for a character behind a backslash. -/
def letter? (c : Char) : Option Char :=
  if c = '"' then some '"'
  else if c = '\\' then some '\\'
  else if c = '\n' then some 'n'
  else if c = '\t' then some 't'
  else if c = '\r' then some 'r'
  else if c = '\x00' then some '0'
  else none

/-- A reader sees the character and what surrounds it as they are. -/
def isPlain (c : Char) : Bool :=
  !(ShapelessCharacter.isShapeless c || AttachedMark.isAttached c)

def encodeChar (c : Char) : List Char :=
  match letter? c with
  | some letter => ['\\', letter]
  | none => if isPlain c then [c] else codePoint c

def encode (name : String) : String :=
  String.ofList ('"' :: name.toList.flatMap encodeChar ++ ['"'])

end ScopedExpr.QuotedName
