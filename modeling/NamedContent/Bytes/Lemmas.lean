import Mathlib
import NamedContent.Bytes

/-!
# Reading numbers back

A number that is written with a width is read back modulo the first number
that does not fit.
-/

set_option autoImplicit false

namespace NamedContent

theorem ofBigEndian_append_singleton (bytes : Bytes) (b : UInt8) :
    ofBigEndian (bytes ++ [b]) = ofBigEndian bytes * 256 + b.toNat := by
  simp [ofBigEndian]

theorem ofBigEndian_bigEndian (width n : Nat) :
    ofBigEndian (bigEndian width n) = n % 256 ^ width := by
  induction width generalizing n with
  | zero => simp [bigEndian, ofBigEndian, Nat.mod_one]
  | succ width ih =>
    have wider : 256 ^ (width + 1) = 256 * 256 ^ width := by rw [Nat.pow_succ, Nat.mul_comm]
    rw [bigEndian, ofBigEndian_append_singleton, ih, UInt8.toNat_ofNat', wider, Nat.mod_mul]
    omega

end NamedContent
