/-!
# Quoted text

Text between double quotes: the quote, the backslash and the control characters are
written as escapes, everything else stands for itself.
-/

namespace ScopedExpr

def hexDigit (n : Nat) : Char :=
  if n < 10 then Char.ofNat ('0'.toNat + n) else Char.ofNat ('a'.toNat + (n - 10))

def escapeChar (c : Char) : List Char :=
  if c = '"' then ['\\', '"']
  else if c = '\\' then ['\\', '\\']
  else if c = '\n' then ['\\', 'n']
  else if c = '\t' then ['\\', 't']
  else if c = '\r' then ['\\', 'r']
  else if c = '\x08' then ['\\', 'b']
  else if c = '\x0c' then ['\\', 'f']
  else if c.toNat < 0x20 then
    ['\\', 'u', '0', '0', hexDigit (c.toNat / 16), hexDigit (c.toNat % 16)]
  else [c]

def quoted (text : List Char) : List Char := '"' :: text.flatMap escapeChar ++ ['"']

def recordText (fields : List (List Char × List Char)) : List Char :=
  let written := fields.map fun (key, value) => quoted key ++ ':' :: value
  '\x7b' :: (List.intercalate [','] written ++ ['\x7d'])

end ScopedExpr
