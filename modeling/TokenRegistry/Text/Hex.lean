import TokenRegistry.Text.Utf8

/-!
# Hexadecimal text

Bytes are written as two lower-case digits each. Reading takes digits of either
case, and looks at the length before it looks at any digit: an odd number of bytes
is refused first, then the first byte that is no digit.
-/
namespace TokenRegistry.Text.Hex

def digits : List Char := "0123456789abcdef".toList

def digit (n : Nat) : Char := digits.getD n '0'

def ofNat (n : Nat) : List Char := (Nat.toDigits 16 n)

def encodeByte (b : UInt8) : List Char := [digit (b.toNat / 16), digit (b.toNat % 16)]

def encode (bs : Bytes) : List Char := bs.flatMap encodeByte

def text (bs : Bytes) : String := String.ofList (encode bs)

inductive Fault
  | odd
  | notDigit (byte : UInt8) (index : Nat)
  deriving DecidableEq, Repr

def digitValue? (b : UInt8) : Option Nat :=
  let n := b.toNat
  if 48 ≤ n ∧ n ≤ 57 then some (n - 48)
  else if 97 ≤ n ∧ n ≤ 102 then some (n - 87)
  else if 65 ≤ n ∧ n ≤ 70 then some (n - 55)
  else none

def digitAt (i : Nat) (b : UInt8) : Except Fault Nat :=
  match digitValue? b with
  | some n => .ok n
  | none => .error (.notDigit b i)

def decodePairs : (i : Nat) → Bytes → Except Fault Bytes
  | _, [] => .ok []
  | _, [_] => .error .odd
  | i, a :: b :: rest => do
    let high ← digitAt i a
    let low ← digitAt (i + 1) b
    let bytes ← decodePairs (i + 2) rest
    return UInt8.ofNat (16 * high + low) :: bytes

def decode (bs : Bytes) : Except Fault Bytes :=
  if bs.length % 2 = 1 then .error .odd else decodePairs 0 bs

def ofText (s : String) : Except Fault Bytes := decode (Utf8.ofString s)

theorem length_encode (bs : Bytes) : (encode bs).length = 2 * bs.length := by
  induction bs with
  | nil => rfl
  | cons b bs ih =>
    have : (encode (b :: bs)).length = (encode bs).length + 2 := by
      simp [encode, encodeByte]
    simp only [this, ih, List.length_cons]; omega

end TokenRegistry.Text.Hex
