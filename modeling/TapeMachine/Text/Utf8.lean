import TapeMachine.Text.Hex

/-!
# Decoding UTF-8

A strict decoder that names the first bytes it cannot read.  A sequence is broken off at the first
byte that cannot continue it: overlong forms, surrogates and values past U+10FFFF show at their
second byte.
-/

namespace TapeMachine.Text

inductive Utf8Cause
  | badStart
  | badContinuation
  | truncated
  deriving DecidableEq, Repr

/-- The bytes from `start` on, `bytes` of them, are not the text of a character. -/
structure Utf8Fault where
  cause : Utf8Cause
  start : Nat
  bytes : List UInt8
  deriving DecidableEq, Repr

def Utf8Cause.message : Utf8Cause → String
  | .badStart => "invalid start byte"
  | .badContinuation => "invalid continuation byte"
  | .truncated => "unexpected end of data"

def Utf8Fault.message (fault : Utf8Fault) : String :=
  let place :=
    match fault.bytes with
    | [b] => s!"byte 0x{String.ofList (hexDigits 2 b.toNat)} in position {fault.start}"
    | bytes => s!"bytes in position {fault.start}-{fault.start + bytes.length - 1}"
  s!"'utf-8' codec can't decode {place}: {fault.cause.message}"

/-! ## Single characters -/

/-- The number of bytes that follow a first byte, and the range of the second one. -/
def followers? (b : UInt8) : Option (Nat × UInt8 × UInt8) :=
  if b < 0x80 then some (0, 0x80, 0xBF)
  else if b < 0xC2 then none
  else if b < 0xE0 then some (1, 0x80, 0xBF)
  else if b = 0xE0 then some (2, 0xA0, 0xBF)
  else if b = 0xED then some (2, 0x80, 0x9F)
  else if b < 0xF0 then some (2, 0x80, 0xBF)
  else if b = 0xF0 then some (3, 0x90, 0xBF)
  else if b < 0xF4 then some (3, 0x80, 0xBF)
  else if b = 0xF4 then some (3, 0x80, 0x8F)
  else none

def leadBits (b : UInt8) : Nat :=
  if b < 0x80 then b.toNat
  else if b < 0xE0 then b.toNat % 32
  else if b < 0xF0 then b.toNat % 16
  else b.toNat % 8

/-- Reads `count` continuation bytes, the first of them between `low` and `high`. -/
def continued (start : Nat) (read : List UInt8) (value : Nat) :
    Nat → UInt8 → UInt8 → List UInt8 → Except Utf8Fault (Nat × List UInt8)
  | 0, _, _, rest => .ok (value, rest)
  | _ + 1, _, _, [] => .error ⟨.truncated, start, read⟩
  | count + 1, low, high, b :: rest =>
    if low ≤ b ∧ b ≤ high then
      continued start (read ++ [b]) (64 * value + b.toNat % 64) count 0x80 0xBF rest
    else .error ⟨.badContinuation, start, read⟩

theorem length_of_continued {start : Nat} {read : List UInt8} {value count : Nat}
    {low high : UInt8} {bytes rest : List UInt8} {v : Nat}
    (h : continued start read value count low high bytes = .ok (v, rest)) :
    rest.length ≤ bytes.length := by
  fun_induction continued start read value count low high bytes with
  | case1 => simp_all
  | case2 => simp at h
  | case3 _ _ _ _ _ _ _ _ ih => have := ih h; simp; omega
  | case4 => simp at h

/-! ## Whole texts -/

def decodeFrom (position : Nat) : List UInt8 → Except Utf8Fault (List Char)
  | [] => .ok []
  | b :: bytes =>
    match followers? b with
    | none => .error ⟨.badStart, position, [b]⟩
    | some (count, low, high) =>
      match _h : continued position [b] (leadBits b) count low high bytes with
      | .error fault => .error fault
      | .ok (value, rest) => (decodeFrom (position + 1 + count) rest).map (Char.ofNat value :: ·)
termination_by bytes => bytes.length
decreasing_by have := length_of_continued _h; simp; omega

def decodeUtf8 (bytes : List UInt8) : Except Utf8Fault String :=
  (decodeFrom 0 bytes).map String.ofList

def encodeUtf8 (s : String) : List UInt8 := s.toList.flatMap String.utf8EncodeChar

end TapeMachine.Text
