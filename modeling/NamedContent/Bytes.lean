/-!
# Byte strings and their fixed-width fields

Numbers are written most significant byte first. A field of variable length
goes behind its own length, so that a sequence of fields can be split in one
way only.
-/

set_option autoImplicit false

namespace NamedContent

abbrev Bytes := List UInt8

/-- The lowest `width` base-256 digits of `n`, most significant first. -/
def bigEndian : Nat → Nat → Bytes
  | 0, _ => []
  | width+1, n => bigEndian width (n / 256) ++ [UInt8.ofNat n]

def ofBigEndian (bytes : Bytes) : Nat :=
  bytes.foldl (fun n b => n * 256 + b.toNat) 0

/-- A byte string behind its length as eight bytes. -/
def counted (bytes : Bytes) : Bytes := bigEndian 8 bytes.length ++ bytes

def pieces {α : Type} (size : Nat) : Nat → List α → List (List α)
  | 0, _ => []
  | count+1, l => l.take size :: pieces size count (l.drop size)

@[simp] theorem bigEndian_length (width n : Nat) : (bigEndian width n).length = width := by
  induction width generalizing n with
  | zero => rfl
  | succ width ih => simp [bigEndian, ih]

end NamedContent
