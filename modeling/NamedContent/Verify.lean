import NamedContent.Ed25519.Signature
import NamedContent.HashTree

/-!
# Verification of single blocks

A block is verified by itself: its leaf digest is taken anew, the witness
leads to a root, and the signature of that root is checked. Since the
signature does not cover the sequence number, a segment name has to agree
with it.
-/

set_option autoImplicit false

namespace NamedContent

inductive VerifyFault where
  | malformedWitness (leafIndex leafCount : UInt64)
  | malformedSignature
  | invalidPublicKey
  | badSignature (root : Digest)
  | noEmbeddedKey
  | publisherMismatch (publisher : PublisherId)
  | sequenceMismatch (nameSegment sequence : UInt64)
  deriving DecidableEq, Repr

def VerifyFault.message : VerifyFault → String
  | .malformedWitness index count =>
    "Witness does not fit a tree of " ++ count.toNat.repr ++ " leaves at index " ++ index.toNat.repr
  | .malformedSignature => "Malformed signature bytes"
  | .invalidPublicKey => "Invalid public key"
  | .badSignature root => "Signature does not match recomputed root " ++ root.short
  | .noEmbeddedKey => "Key locator does not carry a public key"
  | .publisherMismatch publisher =>
    "Public key does not match publisher " ++ publisher.digest.short
  | .sequenceMismatch nameSegment sequence =>
    "Name carries segment " ++ nameSegment.toNat.repr ++ " but block claims sequence " ++
      sequence.toNat.repr

namespace Block

def root (b : Block) : Except VerifyFault Digest :=
  let witness := b.signature.witness
  match witness.root? (leafDigest b.name b.info b.payload) with
  | some root => .ok root
  | none => .error (.malformedWitness witness.leafIndex witness.leafCount)

/-- A segment name carries the block's own sequence number. -/
def checkSequence (b : Block) : Except VerifyFault Unit :=
  match b.name.segmentNumber? with
  | some n => if n = b.sequence then .ok () else .error (.sequenceMismatch n b.sequence)
  | none => .ok ()

def checkSignature (b : Block) (root : Digest) (key : Ed25519.VerifyingKey) :
    Except VerifyFault Unit :=
  match key.verify root.bytes b.signature.rootSignature with
  | .ok () => .ok ()
  | .error .wrongLength => .error .malformedSignature
  | .error _ => .error (.badSignature root)

def verify (b : Block) (key : Ed25519.VerifyingKey) : Except VerifyFault Unit := do
  b.checkSequence
  let root ← b.root
  b.checkSignature root key

/-- Checks the block under the key in its own locator, which has to be the
key of its publisher. -/
def verifySelfCertified (b : Block) : Except VerifyFault Unit :=
  match b.info.keyLocator with
  | .key bytes =>
    if PublisherId.ofPublicKey bytes ≠ b.info.publisher then
      .error (.publisherMismatch b.info.publisher)
    else match Ed25519.VerifyingKey.ofBytes? bytes with
      | none => .error .invalidPublicKey
      | some key => b.verify key
  | _ => .error .noEmbeddedKey

end Block

end NamedContent
