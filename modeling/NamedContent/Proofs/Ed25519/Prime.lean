import Mathlib
import NamedContent.Ed25519.Residue

/-!
# The prime of the curve

2^255 - 19 is prime. This is Lucas's test: an element whose order divides the
predecessor, but none of its quotients by a prime factor, has the order of a
full group of units. The large factors are certified in the same way first.
-/

set_option autoImplicit false

namespace NamedContent.Ed25519

/-- Lucas's test, with the factors of the predecessor as a list. -/
theorem prime_of_lucas {p : ℕ} (a : ZMod p) (factors : List ℕ) (primes : factors.Forall Nat.Prime)
    (product : factors.prod = p - 1) (full : a ^ (p - 1) = 1)
    (parts : factors.Forall fun q => a ^ ((p - 1) / q) ≠ 1) : p.Prime := by
  refine lucas_primality p a full fun q isPrime divides => ?_
  rw [← product] at divides
  obtain ⟨q', mem, divides⟩ := (Prime.dvd_prod_iff isPrime.prime).mp divides
  have isPrime' := List.forall_iff_forall_mem.mp primes q' mem
  obtain rfl := (Nat.prime_dvd_prime_iff_eq isPrime isPrime').mp divides
  exact List.forall_iff_forall_mem.mp parts q mem

theorem prime_10_digits : Nat.Prime 2773320623 := by
  apply prime_of_lucas 5 [2, 2437, 569003]
  · exact ⟨by norm_num, by norm_num, by norm_num⟩
  · norm_num
  · simp only [Nat.reduceSub]
    reduce_mod_char
  · simp only [List.Forall, Nat.reduceSub, Nat.reduceDiv]
    reduce_mod_char
    decide

theorem prime_11_digits : Nat.Prime 72106336199 := by
  apply prime_of_lucas 7 [2, 13, 2773320623]
  · exact ⟨by norm_num, by norm_num, prime_10_digits⟩
  · norm_num
  · simp only [Nat.reduceSub]
    reduce_mod_char
  · simp only [List.Forall, Nat.reduceSub, Nat.reduceDiv]
    reduce_mod_char
    decide

theorem prime_16_digits : Nat.Prime 1919519569386763 := by
  apply prime_of_lucas 2 [2, 3, 7, 19, 47, 47, 127, 8574133]
  · exact ⟨by norm_num, by norm_num, by norm_num, by norm_num, by norm_num, by norm_num,
      by norm_num, by norm_num⟩
  · norm_num
  · simp only [Nat.reduceSub]
    reduce_mod_char
  · simp only [List.Forall, Nat.reduceSub, Nat.reduceDiv]
    reduce_mod_char
    decide

theorem prime_17_digits : Nat.Prime 31757755568855353 := by
  apply prime_of_lucas 10 [2, 2, 2, 3, 31, 107, 223, 4153, 430751]
  · exact ⟨by norm_num, by norm_num, by norm_num, by norm_num, by norm_num, by norm_num,
      by norm_num, by norm_num, by norm_num⟩
  · norm_num
  · simp only [Nat.reduceSub]
    reduce_mod_char
  · simp only [List.Forall, Nat.reduceSub, Nat.reduceDiv]
    reduce_mod_char
    decide

theorem prime_35_digits : Nat.Prime 75445702479781427272750846543864801 := by
  apply prime_of_lucas 7 [2, 2, 2, 2, 2, 3, 3, 5, 5, 75707, 72106336199, 1919519569386763]
  · exact ⟨by norm_num, by norm_num, by norm_num, by norm_num, by norm_num, by norm_num,
      by norm_num, by norm_num, by norm_num, by norm_num, prime_11_digits, prime_16_digits⟩
  · norm_num
  · simp only [Nat.reduceSub]
    reduce_mod_char
  · simp only [List.Forall, Nat.reduceSub, Nat.reduceDiv]
    reduce_mod_char
    decide

theorem prime_71_digits :
    Nat.Prime 74058212732561358302231226437062788676166966415465897661863160754340907 := by
  apply prime_of_lucas 2
    [2, 3, 353, 57467, 132049, 1923133, 31757755568855353, 75445702479781427272750846543864801]
  · exact ⟨by norm_num, by norm_num, by norm_num, by norm_num, by norm_num, by norm_num,
      prime_17_digits, prime_35_digits⟩
  · norm_num
  · simp only [Nat.reduceSub]
    reduce_mod_char
  · simp only [List.Forall, Nat.reduceSub, Nat.reduceDiv]
    reduce_mod_char
    decide

theorem prime_isPrime : Nat.Prime prime := by
  change Nat.Prime 57896044618658097711785492504343953926634992332820282019728792003956564819949
  apply prime_of_lucas 2
    [2, 2, 3, 65147, 74058212732561358302231226437062788676166966415465897661863160754340907]
  · exact ⟨by norm_num, by norm_num, by norm_num, by norm_num, prime_71_digits⟩
  · norm_num
  · simp only [Nat.reduceSub]
    reduce_mod_char
  · simp only [List.Forall, Nat.reduceSub, Nat.reduceDiv]
    reduce_mod_char
    decide

instance : Fact (Nat.Prime prime) := ⟨prime_isPrime⟩

end NamedContent.Ed25519
