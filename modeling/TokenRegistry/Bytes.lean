/-!
# Byte strings

A byte string is a list of bytes, ordered lexicographically. Whole numbers are
stored little-endian at a fixed width; `value_word` says that a number which fits
the width is read back.
-/
namespace TokenRegistry

abbrev Bytes := List UInt8

namespace Bytes

instance : Std.IsLinearOrder Bytes := inferInstance

instance : Std.LawfulOrderLT Bytes := inferInstance

/-- The `width` lowest bytes of `n`, least significant first. -/
def word : (width n : Nat) → Bytes
  | 0, _ => []
  | width+1, n => UInt8.ofNat n :: word width (n / 256)

def value : Bytes → Nat
  | [] => 0
  | b :: bs => b.toNat + 256 * value bs

theorem length_word (width n : Nat) : (word width n).length = width := by
  induction width generalizing n with
  | zero => rfl
  | succ width ih => simp [word, ih]

theorem value_word (width n : Nat) (h : n < Nat.pow 256 width) : value (word width n) = n := by
  induction width generalizing n with
  | zero => exact (Nat.lt_one_iff.mp h).symm
  | succ width ih =>
    have hq : n / 256 < Nat.pow 256 width := Nat.div_lt_of_lt_mul (Nat.mul_comm _ _ ▸ h)
    simp only [word, value, ih _ hq, UInt8.toNat_ofNat']
    omega

theorem value_lt (bs : Bytes) : value bs < Nat.pow 256 bs.length := by
  induction bs with
  | nil => simp [value]
  | cons b bs ih =>
    have hb := b.toNat_lt
    have hp : Nat.pow 256 (b :: bs).length = Nat.pow 256 bs.length * 256 := rfl
    rw [hp, value]
    omega

end Bytes

end TokenRegistry
