import NamedContent.HashTree
import NamedContent.PublishError

/-!
# Signing in batches

One signature covers the root of a hash tree over all blocks of a batch. Each
block takes along the shared signature and its own way to the root. A batch
that checks itself recomputes every way, and verifies the signature if the
signer offers a key for that.
-/

set_option autoImplicit false

namespace NamedContent

def HashTree.build (leaves : List Digest) : Except PublishError HashTree :=
  match ofLeaves? leaves with
  | some tree => .ok tree
  | none => .error (.invalidArgument .emptyTree)

/-- Whatever signs the root of a batch: it may fail, and may return any bytes. -/
structure RootSigner where
  sign : Digest → Except PublishError Bytes
  verifyingKey : Option Ed25519.VerifyingKey

def RootSigner.ofKey (key : Ed25519.SigningKey) : RootSigner :=
  ⟨fun root => .ok (key.sign root.bytes), some key.verifyingKey⟩

structure Draft where
  name : Name
  sequence : UInt64
  payload : Bytes
  deriving DecidableEq, Repr

def Draft.leaf (d : Draft) (info : SignedInfo) : Digest := leafDigest d.name info d.payload

def Draft.signed (d : Draft) (info : SignedInfo) (signature : Signature) : Block :=
  ⟨d.name, d.sequence, d.payload, info, signature⟩

structure Batch where
  root : Digest
  rootSignature : Bytes
  blocks : List Block
  deriving DecidableEq, Repr

namespace Batch

/-- The block of one draft with its witness, which is checked on request. -/
def stamp (check : Bool) (tree : HashTree) (info : SignedInfo) (signature : Bytes)
    (draft : Draft) (index : Nat) : Except PublishError Block :=
  match tree.witness? index with
  | none => .error (.signingFailure (.noPath index))
  | some witness =>
    if check && witness.root? (draft.leaf info) != some tree.root then
      .error (.signingFailure (.pathMisses index tree.root))
    else .ok (draft.signed info ⟨signature, witness⟩)

def checkSignature (key : Option Ed25519.VerifyingKey) (root : Digest) (signature : Bytes) :
    Except PublishError Unit :=
  match key with
  | none => .ok ()
  | some key => (key.verify root.bytes signature).mapError fun f => .signingFailure (.signature f)

def sign (check : Bool) (drafts : List Draft) (info : SignedInfo) (signer : RootSigner) :
    Except PublishError Batch :=
  match HashTree.ofLeaves? (drafts.map fun d => d.leaf info) with
  | none => .error (.invalidArgument .emptyBatch)
  | some tree => do
    let signature ← signer.sign tree.root
    let blocks ← drafts.zipIdx.mapM fun (draft, index) => stamp check tree info signature draft index
    if check then checkSignature signer.verifyingKey tree.root signature
    return ⟨tree.root, signature, blocks⟩

def signOne (draft : Draft) (info : SignedInfo) (signer : RootSigner) :
    Except PublishError Block := do
  let batch ← sign true [draft] info signer
  match batch.blocks with
  | block :: _ => return block
  | [] => throw (.signingFailure .noBlock)

end Batch

end NamedContent
