import NamedContent.Bytes.Hex
import NamedContent.Hash.Sha256

/-!
# Digests

Thirty-two bytes, as SHA-256 makes them, in bytewise order.
-/

set_option autoImplicit false

namespace NamedContent

structure Digest where
  bytes : Bytes
  length_eq : bytes.length = 32
  deriving DecidableEq, Repr

namespace Digest

instance : Ord Digest := ⟨compareOn bytes⟩

instance : Std.TransOrd Digest := inferInstanceAs (Std.TransCmp (compareOn bytes))

instance : Std.LawfulEqOrd Digest where
  eq_of_compare {c d} h := by
    have h : compare c.bytes d.bytes = .eq := h
    cases c; cases d
    congr
    exact Std.LawfulEqCmp.eq_of_compare h

def zero : Digest := ⟨List.replicate 32 0, List.length_replicate⟩

instance : Inhabited Digest := ⟨zero⟩

def ofBytes? (bytes : Bytes) : Option Digest :=
  if h : bytes.length = 32 then some ⟨bytes, h⟩ else none

def hex (d : Digest) : String := toHex d.bytes

def short (d : Digest) : String := toHex (d.bytes.take 4)

def describe (d : Digest) : String := "Digest(" ++ d.short ++ "...)"

end Digest

def sha256 (message : Bytes) : Digest := ⟨Sha256.hash message, Sha256.hash_length message⟩

end NamedContent
