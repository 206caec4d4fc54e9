import NamedContent.Ed25519.Residue

/-!
# Points of the twisted Edwards curve

The curve is -x² + y² = 1 + d·x²·y². A point is held in extended homogeneous
coordinates, in which one formula adds any two points, equal ones and the
neutral point included.
-/

set_option autoImplicit false

namespace NamedContent.Ed25519

/-- The affine point is (`x / z`, `y / z`), and `t` is `x * y / z`. -/
structure Point where
  x : Nat
  y : Nat
  z : Nat
  t : Nat
  deriving DecidableEq, Repr, Inhabited

namespace Point

open Residue

def coefficient : Nat :=
  37095705934669439343138083508754565189542113879843219016388785533085940283555

def neutral : Point := ⟨0, 1, 1, 0⟩

def add (p q : Point) : Point :=
  let a := mul (sub p.y p.x) (sub q.y q.x)
  let b := mul (Residue.add p.y p.x) (Residue.add q.y q.x)
  let c := mul (mul p.t q.t) (mul 2 coefficient)
  let d := mul (mul p.z q.z) 2
  let e := sub b a
  let f := sub d c
  let g := Residue.add d c
  let h := Residue.add b a
  ⟨mul e f, mul g h, mul f g, mul e h⟩

def neg (p : Point) : Point := ⟨sub 0 p.x, p.y, p.z, sub 0 p.t⟩

def multiply : Nat → Nat → Point → Point
  | 0, _, _ => neutral
  | bits+1, n, p =>
    if n = 0 then neutral
    else
      let rest := multiply bits (n / 2) (p.add p)
      if n % 2 = 1 then p.add rest else rest

def base : Point :=
  let x := 15112221349535400772501151409588531511454012693041857206046113283949847762202
  let y := 46316835694926478169428394003475163141307993866256225615783033603165251855960
  ⟨x, y, 1, mul x y⟩

def signBit : Nat := Nat.pow 2 255

/-- The affine y, least significant byte first, with the lowest bit of x on top. -/
def encode (p : Point) : Bytes :=
  let i := inverse p.z
  (bigEndian 32 (mul p.y i + mul p.x i % 2 * signBit)).reverse

/-- The point with this encoding. Its y is taken modulo the prime, and a zero
x may carry the sign bit. -/
def decode? (bytes : Bytes) : Option Point :=
  let n := ofBigEndian bytes.reverse
  let y := n % signBit % prime
  let yy := mul y y
  (sqrtRatio? (sub yy 1) (Residue.add (mul coefficient yy) 1)).map fun root =>
    let x := if n / signBit % 2 = 1 then sub 0 root else root
    ⟨x, y, 1, mul x y⟩

end Point

end NamedContent.Ed25519
