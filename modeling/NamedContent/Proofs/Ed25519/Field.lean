import Mathlib
import NamedContent.Proofs.Ed25519.Prime

/-!
# Residues as elements of the field

The operations on residues compute in the field of residue classes modulo the
prime. All of them return numbers below the prime, where a number is known by
its class.
-/

set_option autoImplicit false

namespace NamedContent.Ed25519

theorem prime_pos : 0 < prime := prime_isPrime.pos

theorem eq_of_cast {a b : ℕ} (ha : a < prime) (hb : b < prime) (h : (a : ZMod prime) = b) :
    a = b := by
  rw [ZMod.natCast_eq_natCast_iff'] at h
  rwa [Nat.mod_eq_of_lt ha, Nat.mod_eq_of_lt hb] at h

theorem val_neg_parity {x : ZMod prime} (h : x ≠ 0) : (-x).val % 2 ≠ x.val % 2 := by
  have : NeZero x := ⟨h⟩
  have below : x.val < prime := x.val_lt
  have odd : prime % 2 = 1 := rfl
  rw [ZMod.val_neg_of_ne_zero]
  omega

namespace Residue

theorem sub_lt (a b : ℕ) : sub a b < prime := Nat.mod_lt _ prime_pos

theorem mul_lt (a b : ℕ) : mul a b < prime := Nat.mod_lt _ prime_pos

@[simp] theorem cast_add (a b : ℕ) : (add a b : ZMod prime) = a + b := by
  simp [add]

theorem cast_sub (a : ℕ) {b : ℕ} (hb : b ≤ prime) : (sub a b : ZMod prime) = a - b := by
  rw [sub, ZMod.natCast_mod, Nat.cast_add, Nat.cast_sub hb, ZMod.natCast_self]
  ring

@[simp] theorem cast_mul (a b : ℕ) : (mul a b : ZMod prime) = a * b := by
  simp [mul]

theorem cast_power (a : ℕ) {bits e : ℕ} (fits : e < 2 ^ bits) :
    (power a bits e : ZMod prime) = (a : ZMod prime) ^ e := by
  induction bits generalizing a e with
  | zero =>
    obtain rfl : e = 0 := by omega
    simp [power]
  | succ bits ih =>
    have half : e / 2 < 2 ^ bits := by omega
    have square : (power (mul a a) bits (e / 2) : ZMod prime) =
        (a : ZMod prime) ^ (2 * (e / 2)) := by
      rw [ih (mul a a) half, cast_mul, ← sq, pow_mul]
    rw [power]
    split
    · rename_i odd
      rw [cast_mul, square, ← pow_succ', show 2 * (e / 2) + 1 = e by omega]
    · rename_i even
      rw [square, show 2 * (e / 2) = e by omega]

@[simp] theorem cast_inverse (a : ℕ) : (inverse a : ZMod prime) = (a : ZMod prime)⁻¹ := by
  rw [inverse, cast_power a (by decide)]
  by_cases zero : (a : ZMod prime) = 0
  · rw [zero, inv_zero, zero_pow (by decide)]
  · apply eq_inv_of_mul_eq_one_left
    rw [← pow_succ]
    exact ZMod.pow_card_sub_one_eq_one zero

end Residue

end NamedContent.Ed25519
