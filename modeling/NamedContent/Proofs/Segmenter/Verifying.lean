import Mathlib
import NamedContent.Proofs.Ed25519.Keys
import NamedContent.Proofs.KeyRing
import NamedContent.Proofs.Segmenter.Planning
import NamedContent.Proofs.SelfCheck

/-!
# What a segmenter publishes verifies

All blocks of a plan come from batches that checked themselves, and each
carries the number of its own name. So they verify under the key of their
publisher. With the locator that a put adds by itself they verify alone, since
the key is filed under the publisher that its bytes make.
-/

set_option autoImplicit false

namespace NamedContent

namespace Batch

variable {drafts : List Draft} {info : SignedInfo} {signer : RootSigner}
  {key : Ed25519.VerifyingKey}

theorem checked_verify {batch : Batch} (offered : signer.verifyingKey = some key)
    (signed : sign true drafts info signer = .ok batch)
    (agree : ∀ d ∈ drafts, ∀ n, d.name.segmentNumber? = some n → n = d.sequence) :
    ∀ b ∈ batch.blocks, b.verify key = .ok () := by
  intro b mem
  obtain ⟨index, here⟩ := List.mem_iff_getElem?.mp mem
  have stands := block_of_checked offered signed here
  exact stands.verify.mpr (agree b.draft (List.mem_of_getElem? stands.draft))

theorem signOne_verify {draft : Draft} {block : Block} (offered : signer.verifyingKey = some key)
    (signed : signOne draft info signer = .ok block)
    (agree : ∀ n, draft.name.segmentNumber? = some n → n = draft.sequence) :
    block.verify key = .ok () := by
  obtain ⟨batch, done, first⟩ := bind_eq_ok.mp signed
  have verify := checked_verify offered done fun d mem => by
    rw [List.mem_singleton.mp mem]
    exact agree
  split at first
  · rename_i blocks
    obtain rfl := Except.ok.inj first
    exact verify _ (blocks ▸ List.mem_cons_self)
  · contradiction

end Batch

namespace Segmenter

variable {s : Segmenter} {root : Name} {data : Bytes} {info : SignedInfo} {isFinal : Bool}
  {signer : RootSigner}

theorem agrees_of_segmentName (root : Name) {number n : UInt64}
    (carried : (root.segmentName number).segmentNumber? = some n) : n = number := by
  rw [Name.segmentName, Name.segmentNumber?_append] at carried
  exact (Option.some.inj carried).symm

theorem prepare_verify {key : Ed25519.VerifyingKey} {w : Writing}
    (offered : signer.verifyingKey = some key)
    (prepared : s.prepare root data info isFinal signer = .ok w) :
    ∀ b ∈ w.blocks, b.verify key = .ok () := by
  rw [prepare] at prepared
  split at prepared
  · obtain ⟨block, signed, done⟩ := bind_eq_ok.mp prepared
    obtain rfl := Except.ok.inj done
    intro b mem
    rw [List.mem_singleton.mp mem]
    exact Batch.signOne_verify offered signed fun n carried => agrees_of_segmentName root carried
  · obtain ⟨batch, signed, done⟩ := bind_eq_ok.mp prepared
    obtain rfl := Except.ok.inj done
    refine Batch.checked_verify offered signed fun d mem n carried => ?_
    rw [number_name mem] at carried
    exact agrees_of_segmentName root carried

end Segmenter

namespace Block

theorem verify_eq {b : Block} {key other : Ed25519.VerifyingKey}
    (same : ∀ message signature, other.verify message signature = key.verify message signature) :
    b.verify other = b.verify key := by
  simp only [verify, checkSignature, same]

/-- A block that carries the key of its publisher verifies by itself as it does under that key. -/
theorem verifySelfCertified_eq {b : Block} {key : Ed25519.SigningKey}
    (locator : b.info.keyLocator = KeyRing.locator key)
    (publisher : KeyRing.publisherOf key = b.info.publisher) :
    b.verifySelfCertified = b.verify key.verifyingKey := by
  obtain ⟨read, found, -, same⟩ := key.exists_read
  have own : ¬PublisherId.ofPublicKey key.verifyingKey.bytes ≠ b.info.publisher :=
    not_not_intro publisher
  rw [verifySelfCertified, locator, KeyRing.locator]
  dsimp only
  rw [if_neg own, found]
  exact verify_eq same

/-- The block verifies under the key that the ring has for the publisher of the
put, and by itself unless the put gave a locator of its own. -/
def Passes (b : Block) (keys : KeyRing) (options : Segmenter.Options) : Prop :=
  ∃ key, keys.verifyingKey (options.publisher.getD keys.default) = .ok key ∧
    b.verify key = .ok () ∧ (options.keyLocator = none → b.verifySelfCertified = .ok ())

end Block

namespace Segmenter

theorem passes_of_mem_plannedBlocks {keys : KeyRing} (reachable : keys.Reachable) {s : Segmenter}
    {timestamp : Int64} {name : Name} {content : Bytes} {options : Options} {b : Block}
    (mem : b ∈ s.plannedBlocks keys timestamp name content options) : b.Passes keys options := by
  rw [plannedBlocks] at mem
  split at mem
  · rename_i writing planned
    obtain ⟨data, key, -, available, -, -, prepares⟩ := plan_eq_ok planned
    have offered : (RootSigner.ofKey key).verifyingKey = some key.verifyingKey := by
      rw [RootSigner.ofKey]
    have verified := prepare_verify offered prepares.symm b mem
    refine ⟨key.verifyingKey, KeyRing.verifyingKey_of_signingKey available, verified, ?_⟩
    intro implicit
    have infos := (prepare_eq_ok prepares.symm).infos b mem
    have locator : b.info.keyLocator = KeyRing.locator key := by
      rw [infos, sharedInfo, implicit, Option.getD_none]
    have publisher : KeyRing.publisherOf key = b.info.publisher := by
      rw [infos]
      exact reachable.filed _ _ (KeyRing.signingKey_eq_ok.mp available)
    rw [Block.verifySelfCertified_eq locator publisher, verified]
  · contradiction

end Segmenter

end NamedContent
