import Mathlib
import NamedContent.Ed25519.Point
import NamedContent.Proofs.Ed25519.Field

/-!
# The curve and the points on it

The coefficient of the curve is not a square while minus one is. So the
denominators of the addition law are never zero, and the sum of two points of
the curve is a third one. Points in extended coordinates compute with the
affine points that they stand for.
-/

set_option autoImplicit false

namespace NamedContent.Ed25519

def d : ZMod prime := (Point.coefficient : ℕ)

theorem sqrtMinusOne_sq : ((Residue.sqrtMinusOne : ℕ) : ZMod prime) ^ 2 = -1 := by
  rw [← Nat.cast_pow, eq_neg_iff_add_eq_zero, ← Nat.cast_one, ← Nat.cast_add,
    ZMod.natCast_eq_zero_iff]
  decide

theorem d_ne_zero : d ≠ 0 := by
  rw [d, Ne, ZMod.natCast_eq_zero_iff]
  decide

theorem d_pow_half : d ^ (prime / 2) = -1 := by
  have euler : (37095705934669439343138083508754565189542113879843219016388785533085940283555 :
      ZMod 57896044618658097711785492504343953926634992332820282019728792003956564819949) ^
      28948022309329048855892746252171976963317496166410141009864396001978282409974 = -1 := by
    reduce_mod_char
  exact euler

theorem two_ne_zero_mod : (2 : ZMod prime) ≠ 0 := by
  rw [← Nat.cast_two, Ne, ZMod.natCast_eq_zero_iff]
  decide

theorem d_not_isSquare : ¬IsSquare d := by
  rw [ZMod.euler_criterion prime d_ne_zero, d_pow_half, eq_comm, eq_neg_iff_add_eq_zero,
    one_add_one_eq_two]
  exact two_ne_zero_mod

theorem eq_zero_of_sq {v w : ZMod prime} (h : d * w ^ 2 = v ^ 2) : w = 0 := by
  by_contra nonzero
  apply d_not_isSquare
  refine ⟨v / w, ?_⟩
  field_simp
  exact h

/-- A point of the curve in affine coordinates. -/
@[ext]
structure Affine where
  x : ZMod prime
  y : ZMod prime
  curve : -x ^ 2 + y ^ 2 = 1 + d * x ^ 2 * y ^ 2

namespace Affine

def product (a b : Affine) : ZMod prime := d * a.x * b.x * a.y * b.y

/-- With a root i of minus one, the coefficient would turn the square of a
multiple of i·x + y of the second point into another square. -/
theorem factor_sq (a b : Affine) {i : ZMod prime} (root : i ^ 2 = -1)
    (one : a.product b ^ 2 = 1) :
    d * (a.x * a.y * (i * b.x + b.y)) ^ 2 = (i * a.x + a.product b * a.y) ^ 2 := by
  rw [product] at one ⊢
  linear_combination (d * a.x ^ 2 * a.y ^ 2 * b.x ^ 2 - a.x ^ 2) * root +
    d * a.x ^ 2 * a.y ^ 2 * b.curve + (1 - a.y ^ 2) * one - a.curve

theorem product_sq_ne_one (a b : Affine) : a.product b ^ 2 ≠ 1 := by
  intro one
  set i : ZMod prime := ((Residue.sqrtMinusOne : ℕ) : ZMod prime)
  have root : i ^ 2 = -1 := sqrtMinusOne_sq
  -- i·x + y and its conjugate are both zero, so that the second y is
  have plus := eq_zero_of_sq (factor_sq a b root one)
  have minus := eq_zero_of_sq (factor_sq a b (i := -i) (by rw [neg_sq, root]) one)
  have both : 2 * (a.x * a.y * b.y) = 0 := by linear_combination plus + minus
  have some : a.x * a.y * b.y = 0 := (mul_eq_zero.mp both).resolve_left two_ne_zero_mod
  have none : a.product b = d * b.x * (a.x * a.y * b.y) := by
    rw [product]
    ring
  rw [none, some, mul_zero, zero_pow two_ne_zero] at one
  exact zero_ne_one one

theorem one_add_product_ne_zero (a b : Affine) : 1 + a.product b ≠ 0 := by
  intro zero
  exact product_sq_ne_one a b (by rw [eq_neg_of_add_eq_zero_right zero]; ring)

theorem one_sub_product_ne_zero (a b : Affine) : 1 - a.product b ≠ 0 := by
  intro zero
  exact product_sq_ne_one a b (by rw [← sub_eq_zero.mp zero]; ring)

theorem curve_add (a b : Affine) :
    -(a.x * b.y + a.y * b.x) ^ 2 * (1 - a.product b) ^ 2 +
        (a.y * b.y + a.x * b.x) ^ 2 * (1 + a.product b) ^ 2 =
      (1 + a.product b) ^ 2 * (1 - a.product b) ^ 2 +
        d * (a.x * b.y + a.y * b.x) ^ 2 * (a.y * b.y + a.x * b.x) ^ 2 := by
  have ha := a.curve
  have hb := b.curve
  rw [product]
  grind

def neutral : Affine := ⟨0, 1, by ring⟩

def add (a b : Affine) : Affine where
  x := (a.x * b.y + a.y * b.x) / (1 + a.product b)
  y := (a.y * b.y + a.x * b.x) / (1 - a.product b)
  curve := by
    have left := one_add_product_ne_zero a b
    have right := one_sub_product_ne_zero a b
    field_simp
    linear_combination curve_add a b

def neg (a : Affine) : Affine where
  x := -a.x
  y := a.y
  curve := by rw [neg_sq]; exact a.curve

def multiply : ℕ → ℕ → Affine → Affine
  | 0, _, _ => neutral
  | bits+1, n, a =>
    if n = 0 then neutral
    else
      let rest := multiply bits (n / 2) (a.add a)
      if n % 2 = 1 then a.add rest else rest

def encode (a : Affine) : Bytes :=
  (bigEndian 32 (a.y.val + a.x.val % 2 * Point.signBit)).reverse

end Affine

section Coordinates

open Residue

variable {p q : Point} (px : p.x < prime) (qx : q.x < prime)
include px qx

theorem Point.cast_add_x : ((p.add q).x : ZMod prime) =
    4 * ((p.x * q.y + p.y * q.x) * (p.z * q.z - d * p.t * q.t)) := by
  simp only [Point.add, cast_mul, Residue.cast_add, cast_sub _ (mul_lt _ _).le, cast_sub _ px.le,
    cast_sub _ qx.le, d, Nat.cast_ofNat]
  ring

theorem Point.cast_add_y : ((p.add q).y : ZMod prime) =
    4 * ((p.z * q.z + d * p.t * q.t) * (p.y * q.y + p.x * q.x)) := by
  simp only [Point.add, cast_mul, Residue.cast_add, cast_sub _ px.le, cast_sub _ qx.le, d,
    Nat.cast_ofNat]
  ring

omit px qx in
theorem Point.cast_add_z : ((p.add q).z : ZMod prime) =
    4 * ((p.z * q.z - d * p.t * q.t) * (p.z * q.z + d * p.t * q.t)) := by
  simp only [Point.add, cast_mul, Residue.cast_add, cast_sub _ (mul_lt _ _).le, d,
    Nat.cast_ofNat]
  ring

theorem Point.cast_add_t : ((p.add q).t : ZMod prime) =
    4 * ((p.x * q.y + p.y * q.x) * (p.y * q.y + p.x * q.x)) := by
  simp only [Point.add, cast_mul, Residue.cast_add, cast_sub _ (mul_lt _ _).le, cast_sub _ px.le,
    cast_sub _ qx.le]
  ring

end Coordinates

/-- The point in extended coordinates stands for the affine point. -/
structure Represents (p : Point) (a : Affine) : Prop where
  x_lt : p.x < prime
  t_lt : p.t < prime
  z_ne : (p.z : ZMod prime) ≠ 0
  x_eq : (p.x : ZMod prime) = a.x * p.z
  y_eq : (p.y : ZMod prime) = a.y * p.z
  t_eq : (p.t : ZMod prime) = a.x * a.y * p.z

namespace Represents

variable {p q : Point} {a b : Affine}

theorem neutral : Represents Point.neutral Affine.neutral where
  x_lt := prime_pos
  t_lt := prime_pos
  z_ne := by simp [Point.neutral]
  x_eq := by simp [Point.neutral, Affine.neutral]
  y_eq := by simp [Point.neutral, Affine.neutral]
  t_eq := by simp [Point.neutral, Affine.neutral]

theorem add (hp : Represents p a) (hq : Represents q b) : Represents (p.add q) (a.add b) := by
  obtain ⟨px, pt, pz, hpx, hpy, hpt⟩ := hp
  obtain ⟨qx, qt, qz, hqx, hqy, hqt⟩ := hq
  have left := Affine.one_add_product_ne_zero a b
  have right := Affine.one_sub_product_ne_zero a b
  -- both denominators of the affine law appear in the new z, scaled alike
  have minus : (p.z * q.z - d * p.t * q.t : ZMod prime) = p.z * q.z * (1 - a.product b) := by
    rw [hpt, hqt, Affine.product]
    ring
  have plus : (p.z * q.z + d * p.t * q.t : ZMod prime) = p.z * q.z * (1 + a.product b) := by
    rw [hpt, hqt, Affine.product]
    ring
  refine ⟨Residue.mul_lt _ _, Residue.mul_lt _ _, ?_, ?_, ?_, ?_⟩
  · rw [Point.cast_add_z, minus, plus]
    have four : (4 : ZMod prime) ≠ 0 := by
      rw [show (4 : ZMod prime) = 2 * 2 by norm_num]
      exact mul_ne_zero two_ne_zero_mod two_ne_zero_mod
    exact mul_ne_zero four (mul_ne_zero (mul_ne_zero (mul_ne_zero pz qz) right)
      (mul_ne_zero (mul_ne_zero pz qz) left))
  · rw [Point.cast_add_z, Point.cast_add_x px qx, minus, plus, hpx, hpy, hqx, hqy, Affine.add]
    field_simp
  · rw [Point.cast_add_z, Point.cast_add_y px qx, minus, plus, hpx, hpy, hqx, hqy, Affine.add]
    field_simp
  · rw [Point.cast_add_z, Point.cast_add_t px qx, minus, plus, hpx, hpy, hqx, hqy, Affine.add]
    field_simp

theorem neg (hp : Represents p a) : Represents p.neg a.neg where
  x_lt := Residue.sub_lt _ _
  t_lt := Residue.sub_lt _ _
  z_ne := hp.z_ne
  x_eq := by
    rw [Point.neg, Residue.cast_sub _ hp.x_lt.le, hp.x_eq, Affine.neg, Nat.cast_zero]
    ring
  y_eq := hp.y_eq
  t_eq := by
    rw [Point.neg, Residue.cast_sub _ hp.t_lt.le, hp.t_eq, Affine.neg, Nat.cast_zero]
    ring

theorem multiply (hp : Represents p a) (bits n : ℕ) :
    Represents (Point.multiply bits n p) (a.multiply bits n) := by
  induction bits generalizing n p a with
  | zero => exact neutral
  | succ bits ih =>
    rw [Point.multiply, Affine.multiply]
    by_cases zero : n = 0
    · rw [if_pos zero, if_pos zero]
      exact neutral
    · have rest := ih (hp.add hp) (n / 2)
      rw [if_neg zero, if_neg zero]
      by_cases odd : n % 2 = 1
      · rw [if_pos odd, if_pos odd]
        exact hp.add rest
      · rw [if_neg odd, if_neg odd]
        exact rest

theorem encode (hp : Represents p a) : p.encode = a.encode := by
  have affine_x : ((Residue.mul p.x (Residue.inverse p.z) : ℕ) : ZMod prime) = a.x := by
    rw [Residue.cast_mul, Residue.cast_inverse, hp.x_eq, mul_inv_cancel_right₀ hp.z_ne]
  have affine_y : ((Residue.mul p.y (Residue.inverse p.z) : ℕ) : ZMod prime) = a.y := by
    rw [Residue.cast_mul, Residue.cast_inverse, hp.y_eq, mul_inv_cancel_right₀ hp.z_ne]
  rw [Point.encode, Affine.encode, ← affine_x, ← affine_y,
    ZMod.val_cast_of_lt (Residue.mul_lt _ _), ZMod.val_cast_of_lt (Residue.mul_lt _ _)]

end Represents

theorem exists_represents_base : ∃ a, Represents Point.base a := by
  have residues : ((Point.base.y ^ 2 : ℕ) : ZMod prime) =
      (Point.base.x ^ 2 + (1 + Point.coefficient * Point.base.x ^ 2 * Point.base.y ^ 2) : ℕ) := by
    rw [ZMod.natCast_eq_natCast_iff']
    decide
  have on : -(Point.base.x : ZMod prime) ^ 2 + (Point.base.y : ZMod prime) ^ 2 =
      1 + d * (Point.base.x : ZMod prime) ^ 2 * (Point.base.y : ZMod prime) ^ 2 := by
    rw [neg_add_eq_iff_eq_add, d]
    exact_mod_cast residues
  refine ⟨⟨_, _, on⟩, by decide, by decide, ?_, ?_, ?_, ?_⟩ <;> simp [Point.base]

end NamedContent.Ed25519
