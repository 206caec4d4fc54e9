import NamedContent.Digest
import NamedContent.Interest

/-!
# Blocks of content

A block is a named payload with its signed information and a signature. The
signature covers the root of a batch; the witness is the way from the block
to that root. The sequence number is the only field that the signature does
not cover.
-/

set_option autoImplicit false

namespace NamedContent

inductive ContentType where
  | data
  | fragment
  | key
  | link
  | gone
  | nack
  deriving DecidableEq, Repr, Inhabited

def ContentType.code : ContentType → UInt8
  | .data => 0
  | .fragment => 1
  | .key => 2
  | .link => 3
  | .gone => 4
  | .nack => 5

structure PublisherId where
  digest : Digest
  deriving DecidableEq, Repr, Inhabited

namespace PublisherId

instance : Ord PublisherId := ⟨compareOn digest⟩

instance : Std.TransOrd PublisherId := inferInstanceAs (Std.TransCmp (compareOn digest))

instance : Std.LawfulEqOrd PublisherId where
  eq_of_compare {a b} h := by
    have h : compare a.digest b.digest = .eq := h
    cases a; cases b
    congr
    exact Std.LawfulEqCmp.eq_of_compare h

def ofPublicKey (key : Bytes) : PublisherId := ⟨sha256 key⟩

def describe (p : PublisherId) : String := "PublisherId(" ++ p.digest.short ++ ")"

end PublisherId

inductive KeyLocator where
  | key (bytes : Bytes)
  | keyName (name : Name)
  | keyDigest (publisher : PublisherId)
  deriving DecidableEq, Repr

def KeyLocator.encoding : KeyLocator → Bytes
  | .key bytes => 0 :: counted bytes
  | .keyName name => 1 :: name.encoding
  | .keyDigest publisher => 2 :: publisher.digest.bytes

structure SignedInfo where
  publisher : PublisherId
  /-- Microseconds since the epoch. -/
  timestamp : Int64
  contentType : ContentType
  keyLocator : KeyLocator
  /-- Seconds for which the block counts as fresh. -/
  freshness : Option UInt32
  finalSegment : Option UInt64
  deriving DecidableEq, Repr

namespace SignedInfo

def millis (i : SignedInfo) : Int := i.timestamp.toInt / 1000

def optionalField (width : Nat) : Option Nat → Bytes
  | none => [0]
  | some n => 1 :: bigEndian width n

/-- Every field in turn; the time goes in as milliseconds in two's complement. -/
def encoding (i : SignedInfo) : Bytes :=
  i.publisher.digest.bytes ++ bigEndian 8 (BitVec.ofInt 64 i.millis).toNat ++ [i.contentType.code] ++
    i.keyLocator.encoding ++ optionalField 4 (i.freshness.map UInt32.toNat) ++
    optionalField 8 (i.finalSegment.map UInt64.toNat)

end SignedInfo

/-- The way from one leaf of a batch to its root: the position, the size of
the batch, and the digests met on the way up. -/
structure Witness where
  leafIndex : UInt64
  leafCount : UInt64
  path : List Digest
  deriving DecidableEq, Repr

def Witness.single : Witness := ⟨0, 1, []⟩

structure Signature where
  rootSignature : Bytes
  witness : Witness
  deriving DecidableEq, Repr

structure Block where
  name : Name
  sequence : UInt64
  payload : Bytes
  info : SignedInfo
  signature : Signature
  deriving DecidableEq, Repr

def Block.isFinal (b : Block) : Bool := b.info.finalSegment = some b.sequence

end NamedContent
