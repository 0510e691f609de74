/-!
# Decoding of UTF-8

Bytes are read one at a time with the unfinished sequence as state, so decoding is
structural on the bytes. A byte outside the range that its place allows ends the
decoding; the fault tells where the unfinished sequence began and how many of its
bytes were in order.
-/

namespace ScopedExpr

inductive Utf8Fault where
  /-- After `length` bytes from `index` no continuation is possible. -/
  | invalid (length index : Nat)
  /-- The bytes end inside the sequence that begins at `index`. -/
  | incomplete (index : Nat)
deriving DecidableEq

def Utf8Fault.message : Utf8Fault → String
  | invalid length index => s!"invalid utf-8 sequence of {length} bytes from index {index}"
  | incomplete index => s!"incomplete utf-8 byte sequence from index {index}"

namespace Utf8

/-- A sequence whose first bytes have been read: the bits so far, the number of bytes
read and missing, and the range of the next byte. -/
structure Pending where
  bits : Nat
  seen : Nat
  missing : Nat
  low : Nat := 0x80
  high : Nat := 0xBF

/-- The sequence that a byte past ASCII opens. Overlong forms, surrogates and numbers
past the last code point are excluded by the range of the second byte. -/
def opening? (byte : Nat) : Option Pending :=
  if 0xC2 ≤ byte ∧ byte ≤ 0xDF then some { bits := byte % 32, seen := 1, missing := 1 }
  else if byte = 0xE0 then some { bits := 0, seen := 1, missing := 2, low := 0xA0 }
  else if byte = 0xED then some { bits := 13, seen := 1, missing := 2, high := 0x9F }
  else if 0xE1 ≤ byte ∧ byte ≤ 0xEF then some { bits := byte % 16, seen := 1, missing := 2 }
  else if byte = 0xF0 then some { bits := 0, seen := 1, missing := 3, low := 0x90 }
  else if 0xF1 ≤ byte ∧ byte ≤ 0xF3 then some { bits := byte % 8, seen := 1, missing := 3 }
  else if byte = 0xF4 then some { bits := 4, seen := 1, missing := 3, high := 0x8F }
  else none

/-- The characters from byte `index` on, where `pending` began. -/
def decodeFrom (index : Nat) (pending : Option Pending) :
    List UInt8 → Except Utf8Fault (List Char)
  | [] => if pending.isNone then .ok [] else .error (.incomplete index)
  | byte :: rest =>
    match pending with
    | none =>
      if byte.toNat < 0x80 then
        (Char.ofNat byte.toNat :: ·) <$> decodeFrom (index + 1) none rest
      else
        match opening? byte.toNat with
        | some opened => decodeFrom index (some opened) rest
        | none => .error (.invalid 1 index)
    | some p =>
      if byte.toNat < p.low ∨ p.high < byte.toNat then .error (.invalid p.seen index)
      else
        let bits := p.bits * 64 + byte.toNat % 64
        if p.missing ≤ 1 then
          (Char.ofNat bits :: ·) <$> decodeFrom (index + p.seen + 1) none rest
        else
          decodeFrom index (some { bits, seen := p.seen + 1, missing := p.missing - 1 }) rest

def decode (bytes : List UInt8) : Except Utf8Fault String :=
  String.ofList <$> decodeFrom 0 none bytes

end Utf8

end ScopedExpr
