import Mathlib
import NamedContent.Ed25519.Signature
import NamedContent.Proofs.Ed25519.Decoding

/-!
# Keys that are read back

The public half of a key pair is written as thirty-two bytes. Read back they
give a key that accepts the same signatures. It may hold its point in other
coordinates, which no verification can tell.
-/

set_option autoImplicit false

namespace NamedContent.Ed25519

theorem VerifyingKey.verify_eq (key other : VerifyingKey) {a : Affine}
    (bytes : other.bytes = key.bytes) (this : Represents key.point a)
    (that : Represents other.point a) (message signature : Bytes) :
    other.verify message signature = key.verify message signature := by
  obtain ⟨base, hbase⟩ := exists_represents_base
  have claimed : ∀ s k : ℕ,
      ((Point.multiply 256 s Point.base).add (Point.multiply 256 k other.point.neg)).encode =
        ((Point.multiply 256 s Point.base).add (Point.multiply 256 k key.point.neg)).encode := by
    intro s k
    rw [((hbase.multiply 256 s).add (that.neg.multiply 256 k)).encode,
      ((hbase.multiply 256 s).add (this.neg.multiply 256 k)).encode]
  simp only [verify, bytes, claimed]

theorem VerifyingKey.exists_read {key : VerifyingKey} {a : Affine}
    (represents : Represents key.point a) (written : key.bytes = key.point.encode) :
    ∃ read, ofBytes? key.bytes = some read ∧ read.bytes = key.bytes ∧
      ∀ message signature, read.verify message signature = key.verify message signature := by
  have bytes : key.bytes = a.encode := written.trans represents.encode
  obtain ⟨point, decoded, again⟩ := a.decode_encode
  have length : key.bytes.length = 32 := by
    rw [bytes, Affine.encode, List.length_reverse, bigEndian_length]
  have read : ofBytes? key.bytes = some ⟨key.bytes, point⟩ := by
    rw [ofBytes?, if_pos length, bytes, decoded, Option.map_some]
  exact ⟨_, read, rfl, verify_eq key ⟨key.bytes, point⟩ rfl represents again⟩

namespace SigningKey

/-- The bytes of the public half of any key pair are read back as a key that
accepts the same signatures. -/
theorem exists_read (key : SigningKey) :
    ∃ read, VerifyingKey.ofBytes? key.verifyingKey.bytes = some read ∧
      read.bytes = key.verifyingKey.bytes ∧
      ∀ message signature,
        read.verify message signature = key.verifyingKey.verify message signature := by
  obtain ⟨base, hbase⟩ := exists_represents_base
  have represents : Represents key.verifyingKey.point (base.multiply 256 key.scalar) :=
    hbase.multiply 256 key.scalar
  exact VerifyingKey.exists_read represents (by rw [verifyingKey])

end SigningKey

end NamedContent.Ed25519
