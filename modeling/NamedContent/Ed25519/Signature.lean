import NamedContent.Ed25519.Point
import NamedContent.Hash.Sha512

/-!
# Ed25519 signatures

Signing as in RFC 8032, without randomness. Verification is cofactorless and
compares encodings: it accepts a signature exactly if its second half is below
the group order and the point it yields is encoded by the first half.
-/

set_option autoImplicit false

namespace NamedContent.Ed25519

def order : Nat := Nat.pow 2 252 + 27742317777372353535851937790883648493

def ofLittleEndian (bytes : Bytes) : Nat := ofBigEndian bytes.reverse

structure SigningKey where
  seed : Bytes
  length_eq : seed.length = 32
  deriving Repr

structure VerifyingKey where
  bytes : Bytes
  point : Point
  deriving DecidableEq, Repr

inductive SignatureFault where
  | wrongLength
  | scalarTooLarge
  | equationFails
  deriving DecidableEq, Repr

def SignatureFault.message : SignatureFault → String
  | .wrongLength => "signature error"
  | .scalarTooLarge => "signature error: Cannot use scalar with high-bit set"
  | .equationFails => "signature error: Verification equation was not satisfied"

namespace SigningKey

def ofSeed? (seed : Bytes) : Option SigningKey :=
  if h : seed.length = 32 then some ⟨seed, h⟩ else none

/-- The secret scalar: the lower half of the expanded seed with the three
lowest bits and the highest bit cleared and the second highest set. -/
def scalar (key : SigningKey) : Nat :=
  let n := ofLittleEndian ((Sha512.hash key.seed).take 32)
  let secondHighest := Nat.pow 2 254
  n % secondHighest / 8 * 8 + secondHighest

def verifyingKey (key : SigningKey) : VerifyingKey :=
  let point := Point.multiply 256 key.scalar Point.base
  ⟨point.encode, point⟩

def sign (key : SigningKey) (message : Bytes) : Bytes :=
  let publicBytes := key.verifyingKey.bytes
  let r := ofLittleEndian (Sha512.hash ((Sha512.hash key.seed).drop 32 ++ message)) % order
  let commitment := (Point.multiply 256 r Point.base).encode
  let k := ofLittleEndian (Sha512.hash (commitment ++ publicBytes ++ message)) % order
  commitment ++ (bigEndian 32 ((r + k * key.scalar) % order)).reverse

end SigningKey

namespace VerifyingKey

def ofBytes? (bytes : Bytes) : Option VerifyingKey :=
  if bytes.length = 32 then (Point.decode? bytes).map fun point => ⟨bytes, point⟩ else none

def verify (key : VerifyingKey) (message signature : Bytes) : Except SignatureFault Unit :=
  let commitment := signature.take 32
  let s := ofLittleEndian (signature.drop 32)
  if signature.length ≠ 64 then .error .wrongLength
  else if order ≤ s then .error .scalarTooLarge
  else
    let k := ofLittleEndian (Sha512.hash (commitment ++ key.bytes ++ message)) % order
    let claimed := (Point.multiply 256 s Point.base).add (Point.multiply 256 k key.point.neg)
    if claimed.encode = commitment then .ok () else .error .equationFails

end VerifyingKey

end NamedContent.Ed25519
