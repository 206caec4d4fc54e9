import Mathlib
import NamedContent.Bytes.Lemmas
import NamedContent.Proofs.Ed25519.Curve

/-!
# Reading a point back

The bytes of a point give its y and the parity of its x. The curve gives the
square of x, so that the even square root or its negative is the x that was
written.
-/

set_option autoImplicit false

namespace NamedContent.Ed25519

namespace Residue

theorem even_or_neg {r : ℕ} (below : r < prime) :
    let even := if r % 2 = 1 then sub 0 r else r
    even < prime ∧ even % 2 = 0 ∧ ((even : ZMod prime) = r ∨ (even : ZMod prime) = -r) := by
  by_cases odd : r % 2 = 1
  · have negative : sub 0 r = prime - r := by
      rw [sub, Nat.zero_add, Nat.mod_eq_of_lt (by omega)]
    have prime_odd : prime % 2 = 1 := rfl
    simp only [if_pos odd]
    refine ⟨sub_lt 0 r, by rw [negative]; omega, .inr ?_⟩
    rw [cast_sub 0 below.le, Nat.cast_zero, zero_sub]
  · simp only [if_neg odd]
    exact ⟨below, by omega, .inl trivial⟩

def candidate (u v : ℕ) : ℕ :=
  let v3 := mul (mul v v) v
  let v7 := mul (mul v3 v3) v
  mul (mul u v3) (power (mul u v7) 253 ((prime - 5) / 8))

theorem sqrtRatio?_eq (u v : ℕ) : sqrtRatio? u v =
    (if mul v (mul (candidate u v) (candidate u v)) = u then some (candidate u v)
      else if mul v (mul (candidate u v) (candidate u v)) = sub 0 u then
        some (mul (candidate u v) sqrtMinusOne)
      else none).map fun root => if root % 2 = 1 then sub 0 root else root := rfl

theorem half_power {r : ZMod prime} (nonzero : r ≠ 0) :
    r ^ (4 * ((prime - 5) / 8) + 2) = 1 ∨ r ^ (4 * ((prime - 5) / 8) + 2) = -1 := by
  rw [← mul_self_eq_one_iff, ← pow_add]
  exact ZMod.pow_card_sub_one_eq_one nonzero

section Square

variable {u v : ℕ} {x : ZMod prime} (square : x ^ 2 * v = u)
include square

/-- The guess is right up to the sign that the half power of x·v⁴ has. -/
theorem candidate_sq : (candidate u v : ZMod prime) ^ 2 * v =
    u * (x * v ^ 4) ^ (4 * ((prime - 5) / 8) + 2) := by
  rw [candidate]
  simp only [cast_mul, cast_power _ (show (prime - 5) / 8 < 2 ^ 253 by decide), ← square]
  ring

theorem sqrtRatio?_of_sq (below : u < prime) (v_ne : (v : ZMod prime) ≠ 0) :
    ∃ root, sqrtRatio? u v = some root ∧ root < prime ∧ root % 2 = 0 ∧
      ((root : ZMod prime) = x ∨ (root : ZMod prime) = -x) := by
  have fits : ∀ root : ℕ, (root : ZMod prime) ^ 2 * v = u →
      (root : ZMod prime) = x ∨ (root : ZMod prime) = -x := by
    intro root h
    rw [← sq_eq_sq_iff_eq_or_eq_neg]
    exact mul_right_cancel₀ v_ne (h.trans square.symm)
  have guess := candidate_sq square
  rw [sqrtRatio?_eq]
  set c := candidate u v
  have squared : ((mul v (mul c c) : ℕ) : ZMod prime) = c ^ 2 * v := by
    rw [cast_mul, cast_mul]
    ring
  have found : ∃ root < prime, (root : ZMod prime) ^ 2 * v = u ∧
      (if mul v (mul c c) = u then some c
        else if mul v (mul c c) = sub 0 u then some (mul c sqrtMinusOne) else none) = some root := by
    by_cases direct : mul v (mul c c) = u
    · exact ⟨c, mul_lt _ _, by rw [← squared, direct], if_pos direct⟩
    · -- the sign is not one, so it is minus one, which the root of minus one makes up for
      have apart : (c : ZMod prime) ^ 2 * v ≠ u := by
        rw [← squared]
        exact fun same => direct (eq_of_cast (mul_lt _ _) below same)
      have nonzero : x * (v : ZMod prime) ^ 4 ≠ 0 := by
        intro zero
        have u_zero : (u : ZMod prime) = 0 := by
          rw [← square, (mul_eq_zero.mp zero).resolve_right (pow_ne_zero 4 v_ne)]
          ring
        exact apart (by rw [guess, u_zero, zero_mul])
      have negative : (c : ZMod prime) ^ 2 * v = -u := by
        obtain one | minus := half_power nonzero
        · exact absurd (by rw [guess, one, mul_one]) apart
        · rw [guess, minus, mul_neg_one]
      have opposite : mul v (mul c c) = sub 0 u := by
        apply eq_of_cast (mul_lt _ _) (sub_lt _ _)
        rw [squared, negative, cast_sub 0 below.le, Nat.cast_zero, zero_sub]
      refine ⟨mul c sqrtMinusOne, mul_lt _ _, ?_, by rw [if_neg direct, if_pos opposite]⟩
      rw [cast_mul, mul_pow, sqrtMinusOne_sq]
      linear_combination -negative
  obtain ⟨root, root_lt, root_sq, eq⟩ := found
  rw [eq]
  obtain ⟨even_lt, even, either⟩ := even_or_neg root_lt
  refine ⟨_, rfl, even_lt, even, ?_⟩
  obtain same | opposite := either
  · rw [same]
    exact fits root root_sq
  · rw [opposite, neg_eq_iff_eq_neg, neg_inj]
    exact (fits root root_sq).symm

end Square

end Residue

namespace Affine

/-- For a given y the equation of the curve has a denominator other than zero,
since minus one is a square. -/
theorem denominator_ne_zero (a : Affine) : d * a.y ^ 2 + 1 ≠ 0 := by
  intro zero
  have one : a.y ^ 2 = 1 := by linear_combination a.curve + a.x ^ 2 * zero
  have minus : d * 1 ^ 2 = ((Residue.sqrtMinusOne : ℕ) : ZMod prime) ^ 2 := by
    rw [sqrtMinusOne_sq]
    linear_combination zero - d * one
  exact one_ne_zero (eq_zero_of_sq minus)

theorem y_lt_signBit (a : Affine) : a.y.val < Point.signBit := a.y.val_lt.trans (by decide)

theorem ofBigEndian_encode (a : Affine) :
    ofBigEndian a.encode.reverse = a.y.val + a.x.val % 2 * Point.signBit := by
  have y_lt := a.y_lt_signBit
  have fits : a.y.val + a.x.val % 2 * Point.signBit < 256 ^ 32 := by
    have sign : Point.signBit = 2 ^ 255 := rfl
    rw [sign] at y_lt ⊢
    omega
  rw [encode, List.reverse_reverse, ofBigEndian_bigEndian, Nat.mod_eq_of_lt fits]

/-- The bytes of a point of the curve are read back as that point. -/
theorem decode_encode (a : Affine) : ∃ p, Point.decode? a.encode = some p ∧ Represents p a := by
  have y_read : ofBigEndian a.encode.reverse % Point.signBit % prime = a.y.val := by
    rw [ofBigEndian_encode, Nat.add_mul_mod_self_right, Nat.mod_eq_of_lt a.y_lt_signBit,
      Nat.mod_eq_of_lt a.y.val_lt]
  have sign_read : ofBigEndian a.encode.reverse / Point.signBit % 2 = a.x.val % 2 := by
    rw [ofBigEndian_encode, Nat.add_mul_div_right _ _ (by decide), Nat.div_eq_of_lt a.y_lt_signBit,
      Nat.zero_add, Nat.mod_mod]
  have y_cast : ((a.y.val : ℕ) : ZMod prime) = a.y := ZMod.natCast_zmod_val a.y
  set u := Residue.sub (Residue.mul a.y.val a.y.val) 1
  set v := Residue.add (Residue.mul Point.coefficient (Residue.mul a.y.val a.y.val)) 1
  have u_cast : (u : ZMod prime) = a.y ^ 2 - 1 := by
    rw [Residue.cast_sub _ (by decide), Residue.cast_mul, y_cast, Nat.cast_one, sq]
  have v_cast : (v : ZMod prime) = d * a.y ^ 2 + 1 := by
    rw [Residue.cast_add, Residue.cast_mul, Residue.cast_mul, y_cast, Nat.cast_one, sq, d]
  obtain ⟨root, found, root_lt, even, either⟩ := Residue.sqrtRatio?_of_sq (u := u) (v := v)
    (x := a.x) (by rw [u_cast, v_cast]; linear_combination -a.curve) (Residue.sub_lt _ _)
    (by rw [v_cast]; exact a.denominator_ne_zero)
  set x := if a.x.val % 2 = 1 then Residue.sub 0 root else root
  -- the parity tells the two roots apart
  have x_read : x < prime ∧ (x : ZMod prime) = a.x := by
    have root_val : (root : ZMod prime).val = root := ZMod.val_cast_of_lt root_lt
    by_cases odd : a.x.val % 2 = 1
    · have other : (root : ZMod prime) ≠ a.x := by
        intro same
        rw [same] at root_val
        omega
      simp only [x, if_pos odd]
      refine ⟨Residue.sub_lt _ _, ?_⟩
      rw [Residue.cast_sub 0 root_lt.le, either.resolve_left other]
      simp
    · simp only [x, if_neg odd]
      refine ⟨root_lt, ?_⟩
      obtain same | opposite := either
      · exact same
      · by_cases zero : a.x = 0
        · rw [opposite, zero, neg_zero]
        · have parity := val_neg_parity zero
          rw [← opposite, root_val] at parity
          omega
  refine ⟨⟨x, a.y.val, 1, Residue.mul x a.y.val⟩, ?_, x_read.1, Residue.mul_lt _ _, ?_, ?_, ?_, ?_⟩
  · rw [Point.decode?, y_read, found, Option.map_some, sign_read]
  · simp
  · simp [x_read.2]
  · simp
  · simp [x_read.2]

end Affine

end NamedContent.Ed25519
