import Mathlib
import NamedContent.Proofs.Batch
import NamedContent.Proofs.HashTree.Ascent

/-!
# Batches that check themselves

A batch that checks itself has walked up from every leaf and has verified its
signature before it is returned. Nothing is assumed of the signer: whatever it
returns, the blocks of a batch that comes back verify one by one.
-/

set_option autoImplicit false

namespace NamedContent

theorem mapM_getElem? {ε α β : Type} {f : α → Except ε β} {l : List α} {bs : List β}
    (done : l.mapM f = .ok bs) {i : Nat} {b : β} (here : bs[i]? = some b) :
    ∃ a, l[i]? = some a ∧ f a = .ok b := by
  obtain ⟨same, pairs⟩ := List.forall₂_iff_get.mp (mapM_eq_ok.mp done)
  obtain ⟨below, rfl⟩ := List.getElem?_eq_some_iff.mp here
  have below' : i < l.length := same ▸ below
  exact ⟨l[i], List.getElem?_eq_getElem below', pairs i below' below⟩

namespace Batch

variable {drafts : List Draft} {info : SignedInfo} {signer : RootSigner}

theorem stamp_checked {tree : HashTree} {signature : Bytes} {draft : Draft} {index : Nat}
    {block : Block} (stamped : stamp true tree info signature draft index = .ok block) :
    ∃ witness, tree.witness? index = some witness ∧
      witness.root? (draft.leaf info) = some tree.root ∧
      block = draft.signed info ⟨signature, witness⟩ := by
  rw [stamp] at stamped
  split at stamped
  · contradiction
  · rename_i witness isOwn
    split at stamped
    · contradiction
    · rename_i passed
      exact ⟨witness, isOwn, by simpa using passed, (Except.ok.inj stamped).symm⟩

end Batch

namespace Block

theorem verify_iff {b : Block} {key : Ed25519.VerifyingKey} {root : Digest}
    (reached : b.root = .ok root)
    (signed : key.verify root.bytes b.signature.rootSignature = .ok ()) :
    b.verify key = .ok () ↔ ∀ n, b.name.segmentNumber? = some n → n = b.sequence := by
  constructor
  · intro verified n hn
    exact (sequence_of_checkSequence (verify_inversion verified).1 hn).symm
  · intro agrees
    have sequence : b.checkSequence = .ok () := by
      rw [checkSequence]
      cases number : b.name.segmentNumber? with
      | none => rfl
      | some n => simp [agrees n number]
    simp [verify, sequence, reached, Block.checkSignature, signed, bind, Except.bind]

/-- The block at `index` of a batch over these drafts, ready to be verified
under the key. -/
structure Stands (b : Block) (drafts : List Draft) (info : SignedInfo) (batch : Batch)
    (key : Ed25519.VerifyingKey) (index : Nat) : Prop where
  draft : drafts[index]? = some b.draft
  info : b.info = info
  rootSignature : b.signature.rootSignature = batch.rootSignature
  leafIndex : b.signature.witness.leafIndex.toNat = index
  leafCount : b.signature.witness.leafCount.toNat = drafts.length
  root : b.root = .ok batch.root
  verify : b.verify key = .ok () ↔ ∀ n, b.name.segmentNumber? = some n → n = b.sequence

end Block

namespace Batch

variable {drafts : List Draft} {info : SignedInfo} {signer : RootSigner}

theorem sign_whole {selfCheck : Bool} {batch : Batch}
    (signed : sign selfCheck drafts info signer = .ok batch) :
    batch.blocks.length = drafts.length ∧ signer.sign batch.root = .ok batch.rootSignature := by
  obtain ⟨tree, signature, blocks, -, bytes, stamped, -, rfl⟩ := sign_inversion signed
  have same := mapM_map (g := fun _ => ()) (h := fun _ => ()) (fun _ _ _ => rfl) stamped
  exact ⟨by simpa using congrArg List.length same, bytes⟩

/-- A block of a batch that checked itself against a key is the signed draft of
its place, leads to the root of the batch, and verifies under the key unless
its name carries the number of another segment. -/
theorem block_of_checked {key : Ed25519.VerifyingKey} {batch : Batch}
    (offered : signer.verifyingKey = some key)
    (signed : sign true drafts info signer = .ok batch) {index : Nat} {b : Block}
    (here : batch.blocks[index]? = some b) : b.Stands drafts info batch key index := by
  have whole := sign_whole signed
  obtain ⟨tree, signature, blocks, leaves, bytes, stamped, checked, rfl⟩ := sign_inversion signed
  have verified := checkSignature_eq_ok.mp (checked rfl) key offered
  have stamp_at : ∀ index b, blocks[index]? = some b → ∃ d witness, drafts[index]? = some d ∧
      tree.witness? index = some witness ∧ witness.root? (d.leaf info) = some tree.root ∧
      b = d.signed info ⟨signature, witness⟩ := by
    intro index b here
    obtain ⟨⟨d, place⟩, at_index, passed⟩ := mapM_getElem? stamped here
    obtain ⟨h, eq⟩ : drafts[index]? = some d ∧ index = place := by
      simpa [List.getElem?_zipIdx] using at_index
    subst eq
    obtain ⟨witness, isOwn, reached, rfl⟩ := stamp_checked passed
    exact ⟨d, witness, h, isOwn, reached, rfl⟩
  have tree_leaves : tree.leaves = drafts.map fun d => d.leaf info :=
    HashTree.leaves_of_ofLeaves leaves
  have tree_count : tree.leafCount = drafts.length := by
    rw [HashTree.leafCount, tree_leaves, List.length_map]
  -- the walk from the first leaf shows that the count fits the witnesses
  have small : tree.leafCount < UInt64.size := by
    have some : 0 < blocks.length := by
      rw [show blocks.length = drafts.length from whole.1]
      exact List.length_pos_iff.mpr (drafts_ne_nil signed)
    obtain ⟨d, witness, h, isOwn, reached, -⟩ :=
      stamp_at 0 blocks[0] (List.getElem?_eq_getElem some)
    exact HashTree.leafCount_lt_of_reaches (by rw [tree_leaves, List.getElem?_map, h]; rfl)
      isOwn reached
  obtain ⟨d, witness, h, isOwn, reached, rfl⟩ := stamp_at index b here
  obtain ⟨inside, rfl⟩ := HashTree.witness?_eq_some.mp isOwn
  have root := Block.root_eq_ok (b := d.signed info ⟨signature, tree.own index⟩).mpr reached
  exact ⟨h, rfl, rfl, HashTree.own_leafIndex inside small,
    (HashTree.own_leafCount small).trans tree_count, root, Block.verify_iff root verified⟩

/-- A batch that checked itself against a key holds one block for each draft,
in order, and each stands as it should. The signer is free to sign as it likes. -/
theorem checked_stands {key : Ed25519.VerifyingKey} {batch : Batch}
    (offered : signer.verifyingKey = some key)
    (signed : sign true drafts info signer = .ok batch) :
    batch.blocks.length = drafts.length ∧ signer.sign batch.root = .ok batch.rootSignature ∧
      ∀ index (b : Block), batch.blocks[index]? = some b →
        b.Stands drafts info batch key index := by
  obtain ⟨count, bytes⟩ := sign_whole signed
  exact ⟨count, bytes, fun _ _ here => block_of_checked offered signed here⟩

/-- Three drafts under a signer that returns the same bytes whatever the root.
The neutral point takes them for a signature of anything, so that the batch
passes its own check. The second draft contradicts its name. -/
theorem checked_stands_three :
    ∃ (drafts : List Draft) (info : SignedInfo) (signer : RootSigner) (key : Ed25519.VerifyingKey)
      (batch : Batch) (b₀ b₁ b₂ : Block),
      drafts = [⟨⟨[⟨[97]⟩, .segment 0]⟩, 0, [1, 2]⟩, ⟨⟨[⟨[97]⟩, .segment 1]⟩, 7, [3]⟩,
        ⟨⟨[⟨[98]⟩]⟩, 5, []⟩] ∧
      signer.verifyingKey = some key ∧ sign true drafts info signer = .ok batch ∧
      batch.blocks = [b₀, b₁, b₂] ∧ b₀.verify key = .ok () ∧ b₁.verify key ≠ .ok () ∧
      b₂.verify key = .ok () ∧ b₂.signature.witness.leafCount.toNat = 3 := by
  let drafts : List Draft := [⟨⟨[⟨[97]⟩, .segment 0]⟩, 0, [1, 2]⟩,
    ⟨⟨[⟨[97]⟩, .segment 1]⟩, 7, [3]⟩, ⟨⟨[⟨[98]⟩]⟩, 5, []⟩]
  let info : SignedInfo := ⟨⟨.zero⟩, 0, .data, .keyName ⟨[⟨[]⟩]⟩, none, none⟩
  let key : Ed25519.VerifyingKey := ⟨1 :: List.replicate 31 0, .neutral⟩
  let signer : RootSigner := ⟨fun _ => .ok (1 :: List.replicate 63 0), some key⟩
  have passes : (sign true drafts info signer).toOption.isSome := by decide +kernel
  cases signed : sign true drafts info signer with
  | error e =>
    rw [signed] at passes
    contradiction
  | ok batch =>
    have offered : signer.verifyingKey = some key := rfl
    obtain ⟨count, -, stands⟩ := checked_stands offered signed
    obtain ⟨b₀, b₁, b₂, blocks⟩ := List.length_eq_three.mp count
    have first := stands 0 b₀ (by rw [blocks]; rfl)
    have second := stands 1 b₁ (by rw [blocks]; rfl)
    have third := stands 2 b₂ (by rw [blocks]; rfl)
    obtain ⟨name₀, number₀, -⟩ := Draft.mk.inj (Option.some.inj first.draft)
    obtain ⟨name₁, number₁, -⟩ := Draft.mk.inj (Option.some.inj second.draft)
    obtain ⟨name₂, -, -⟩ := Draft.mk.inj (Option.some.inj third.draft)
    refine ⟨drafts, info, signer, key, batch, b₀, b₁, b₂, rfl, rfl, signed, blocks, ?_, ?_, ?_,
      third.leafCount⟩
    · rw [first.verify, ← name₀, ← number₀]
      intro n carried
      have carries : (⟨[⟨[97]⟩, .segment 0]⟩ : Name).segmentNumber? = some 0 := by decide
      exact Option.some.inj (carried.symm.trans carries)
    · rw [Ne, second.verify, ← name₁, ← number₁]
      intro agrees
      exact absurd (agrees 1 (by decide)) (by decide)
    · rw [third.verify, ← name₂]
      intro n carried
      have carries : (⟨[⟨[98]⟩]⟩ : Name).segmentNumber? = none := by decide
      exact absurd (carried.symm.trans carries) (Option.some_ne_none n)

end Batch

end NamedContent
