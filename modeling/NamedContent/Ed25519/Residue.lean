import NamedContent.Bytes

/-!
# Residues modulo a prime

The field of Curve25519: residues modulo the prime 2^255 - 19. Every operation takes and returns
numbers below the prime.
-/

set_option autoImplicit false

namespace NamedContent.Ed25519

def prime : Nat := Nat.pow 2 255 - 19

namespace Residue

def add (a b : Nat) : Nat := (a + b) % prime

def sub (a b : Nat) : Nat := (a + (prime - b)) % prime

def mul (a b : Nat) : Nat := a * b % prime

def power (a : Nat) : Nat → Nat → Nat
  | 0, _ => 1
  | bits+1, e =>
    let rest := power (mul a a) bits (e / 2)
    if e % 2 = 1 then mul a rest else rest

def inverse (a : Nat) : Nat := power a 255 (prime - 2)

def sqrtMinusOne : Nat :=
  19681161376707505956807079304988542015446066515923890162744021073123829784752

/-- The even square root of `u / v`, for a non-zero `v`. The candidate is a
root up to a fourth root of unity, so one correction decides. -/
def sqrtRatio? (u v : Nat) : Option Nat :=
  let v3 := mul (mul v v) v
  let v7 := mul (mul v3 v3) v
  let candidate := mul (mul u v3) (power (mul u v7) 253 ((prime - 5) / 8))
  let square := mul v (mul candidate candidate)
  let root? :=
    if square = u then some candidate
    else if square = sub 0 u then some (mul candidate sqrtMinusOne)
    else none
  root?.map fun root => if root % 2 = 1 then sub 0 root else root

end Residue

end NamedContent.Ed25519
