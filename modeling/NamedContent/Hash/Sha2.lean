import NamedContent.Bytes

/-!
# The SHA-2 construction

One compression function serves both word sizes of FIPS 180-4. A `Variant`
holds what differs: the word operations, the round constants and the initial
state. The message is padded to whole blocks and the blocks are folded into
the state from the left.
-/

set_option autoImplicit false

namespace NamedContent.Sha2

structure Words (W : Type) where
  a : W
  b : W
  c : W
  d : W
  e : W
  f : W
  g : W
  h : W

structure Variant (W : Type) where
  wordBytes : Nat
  ofNat : Nat → W
  toNat : W → Nat
  add : W → W → W
  choose : W → W → W → W
  majority : W → W → W → W
  bigSigma0 : W → W
  bigSigma1 : W → W
  smallSigma0 : W → W
  smallSigma1 : W → W
  constants : List W
  initial : Words W

variable {W : Type}

/-- A one bit, then zeros up to a whole number of blocks, the last two words
of which hold the length of the message in bits. -/
def pad (v : Variant W) (message : Bytes) : Bytes :=
  let block := 16 * v.wordBytes
  let used := message.length + 1 + 2 * v.wordBytes
  message ++ 0x80 :: List.replicate ((block - used % block) % block) 0 ++
    bigEndian (2 * v.wordBytes) (8 * message.length)

/-- Adds `count` words to a schedule that is held newest word first. -/
def extend (v : Variant W) (zero : W) : Nat → List W → List W
  | 0, ws => ws
  | count+1, ws =>
    let next := v.add (v.add (v.smallSigma1 (ws.getD 1 zero)) (ws.getD 6 zero))
      (v.add (v.smallSigma0 (ws.getD 14 zero)) (ws.getD 15 zero))
    extend v zero count (next :: ws)

def schedule (v : Variant W) (block : Bytes) : List W :=
  let first := (pieces v.wordBytes 16 block).map fun w => v.ofNat (ofBigEndian w)
  (extend v (v.ofNat 0) (v.constants.length - 16) first.reverse).reverse

def round (v : Variant W) (s : Words W) (constant word : W) : Words W :=
  let t1 := v.add (v.add (v.add s.h (v.bigSigma1 s.e)) (v.choose s.e s.f s.g))
    (v.add constant word)
  let t2 := v.add (v.bigSigma0 s.a) (v.majority s.a s.b s.c)
  ⟨v.add t1 t2, s.a, s.b, s.c, v.add s.d t1, s.e, s.f, s.g⟩

def compress (v : Variant W) (s : Words W) (block : Bytes) : Words W :=
  let r := (v.constants.zip (schedule v block)).foldl (fun t kw => round v t kw.1 kw.2) s
  ⟨v.add s.a r.a, v.add s.b r.b, v.add s.c r.c, v.add s.d r.d,
    v.add s.e r.e, v.add s.f r.f, v.add s.g r.g, v.add s.h r.h⟩

def Words.toBytes (v : Variant W) (s : Words W) : Bytes :=
  [s.a, s.b, s.c, s.d, s.e, s.f, s.g, s.h].flatMap fun w => bigEndian v.wordBytes (v.toNat w)

def hash (v : Variant W) (message : Bytes) : Bytes :=
  let padded := pad v message
  let blocks := pieces (16 * v.wordBytes) (padded.length / (16 * v.wordBytes)) padded
  (blocks.foldl (compress v) v.initial).toBytes v

theorem hash_length (v : Variant W) (message : Bytes) :
    (hash v message).length = 8 * v.wordBytes := by
  simp [hash, Words.toBytes]
  omega

end NamedContent.Sha2
