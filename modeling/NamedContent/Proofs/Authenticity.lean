import NamedContent.Proofs.Batch
import NamedContent.Proofs.HashTree.Preimages

/-!
# Blocks cannot be passed off as parts of a batch

A block whose witness leads to the root of a signed batch carries the name,
the payload and the signed information of one of the blocks that were signed.
The only way around this is a collision among the byte strings that were
hashed, which is part of the statement. No property of SHA-256 is assumed.
-/

set_option autoImplicit false

namespace NamedContent

namespace Batch

def leafPreimages (drafts : List Draft) (info : SignedInfo) : List Bytes :=
  drafts.map fun d => leafPreimage d.name info d.payload

/-- What is hashed to build the tree of a batch. -/
def preimages (drafts : List Draft) (info : SignedInfo) : List Bytes :=
  leafPreimages drafts info ++ HashTree.preimagesAbove ((leafPreimages drafts info).map sha256)

theorem leaves_eq (drafts : List Draft) (info : SignedInfo) :
    (drafts.map fun d => d.leaf info) = (leafPreimages drafts info).map sha256 := by
  rw [leafPreimages, List.map_map]
  rfl

theorem root_mem_nodes {check : Bool} {drafts : List Draft} {info : SignedInfo}
    {signer : RootSigner} {batch : Batch} (h : sign check drafts info signer = .ok batch) :
    batch.root ∈ HashTree.nodes ((leafPreimages drafts info).map sha256) := by
  obtain ⟨tree, signature, blocks, hleaves, -, -, -, rfl⟩ := sign_inversion h
  have mem := HashTree.root_mem_nodes tree
  rwa [HashTree.leaves_of_ofLeaves hleaves, leaves_eq] at mem

end Batch

namespace Block

/-- What is hashed to find the root of a block. -/
def preimages (b : Block) : List Bytes :=
  let w := b.signature.witness
  leafPreimage b.name b.info b.payload ::
    HashTree.climbPreimages (HashTree.route w.leafIndex.toNat w.leafCount.toNat)
      (leafDigest b.name b.info b.payload) w.path

theorem climb_of_root {b : Block} {root : Digest} (h : b.root = .ok root) :
    HashTree.climb
      (HashTree.route b.signature.witness.leafIndex.toNat b.signature.witness.leafCount.toNat)
      (leafDigest b.name b.info b.payload) b.signature.witness.path = some root := by
  have reached := root_eq_ok.mp h
  rw [Witness.root?] at reached
  split at reached
  · exact reached
  · simp at reached

/-- A leaf whose digest is in the tree of a batch is the leaf of one of its
blocks, if no two hashed strings have the same digest. -/
theorem draft_of_leaf_mem {drafts : List Draft} {info : SignedInfo} {hashed : List Bytes}
    (clean : ¬Collides hashed) (built : Batch.preimages drafts info ⊆ hashed) {name : Name}
    {other : SignedInfo} {payload : Bytes} (fits : LeafFits name other payload)
    (fit : ∀ d ∈ drafts, LeafFits d.name info d.payload)
    (hm : leafPreimage name other payload ∈ hashed)
    (h : leafDigest name other payload ∈
      HashTree.nodes ((Batch.leafPreimages drafts info).map sha256)) :
    ∃ d ∈ drafts, name = d.name ∧ payload = d.payload ∧ other.Agrees info := by
  obtain ⟨hi, ha⟩ := List.append_subset.mp built
  rcases HashTree.built_from clean hi ha hm h with leaf | inner
  · obtain ⟨d, hd, same⟩ := List.mem_map.mp leaf
    exact ⟨d, hd, leafPreimage_inj fits (fit d hd) same.symm⟩
  · obtain ⟨l, -, r, -, same⟩ := HashTree.preimagesAbove_mem inner
    exact absurd same (leafPreimage_ne_nodePreimage _ _ _ l r)

/-- A block that leads to the root of a signed batch is one of those that were
signed, in name, payload and signed information, unless two of the hashed
strings collide. Its sequence number is not hashed; that of a verified block
is the one in its name. -/
theorem authentic_or_collision {check : Bool} {drafts : List Draft} {info : SignedInfo}
    {signer : RootSigner} {batch : Batch} (signed : Batch.sign check drafts info signer = .ok batch)
    (fit : ∀ d ∈ drafts, LeafFits d.name info d.payload) {b : Block}
    (fits : LeafFits b.name b.info b.payload) (reached : b.root = .ok batch.root) :
    ((∃ d ∈ drafts, b.name = d.name ∧ b.payload = d.payload ∧ b.info.Agrees info) ∨
      Collides (Batch.preimages drafts info ++ b.preimages)) ∧
    ∀ key, b.verify key = .ok () →
      ∀ n, b.name.segmentNumber? = some n → b.sequence = n := by
  constructor
  · -- without a collision every digest has one preimage, and the walk can be followed down
    by_cases clean : Collides (Batch.preimages drafts info ++ b.preimages)
    · exact .inr clean
    · left
      have built : Batch.preimages drafts info ⊆ Batch.preimages drafts info ++ b.preimages :=
        List.subset_append_left _ _
      have walked : b.preimages ⊆ Batch.preimages drafts info ++ b.preimages :=
        List.subset_append_right _ _
      have leaf : leafDigest b.name b.info b.payload ∈
          HashTree.nodes ((Batch.leafPreimages drafts info).map sha256) := by
        apply HashTree.climb_descends _ clean (List.append_subset.mp built).1
          (List.append_subset.mp built).2 (List.subset_of_cons_subset walked)
          (climb_of_root reached) (Batch.root_mem_nodes signed)
        intro m hm l r
        obtain ⟨d, -, rfl⟩ := List.mem_map.mp hm
        exact leafPreimage_ne_nodePreimage _ _ _ l r
      exact draft_of_leaf_mem clean built fits fit (walked (by simp [Block.preimages])) leaf
  · intro key verified n hn
    exact sequence_of_checkSequence (verify_inversion verified).1 hn

end Block

theorem HashTree.levelsFrom_pair (l r : Digest) :
    HashTree.levelsFrom [l, r] = [[l, r], [nodeDigest l r]] := by
  rw [levelsFrom, if_neg (by simp), levelsFrom, if_pos (by simp [pairUp]), pairUp, pairUp]
  all_goals simp

theorem HashTree.ofLeaves_pair (l r : Digest) :
    ∃ t, HashTree.ofLeaves? [l, r] = some t ∧ t.root = nodeDigest l r ∧
      t.witness? 0 = some ⟨0, 2, [r]⟩ ∧ t.witness? 1 = some ⟨1, 2, [l]⟩ := by
  refine ⟨⟨[l, r], by simp, [[l, r], [nodeDigest l r]], (levelsFrom_pair l r).symm⟩, ?_,
    rfl, rfl, rfl⟩
  simp [ofLeaves?, levelsFrom_pair]

theorem Batch.sign_pair (d e : Draft) (info : SignedInfo) (s : Bytes) :
    Batch.sign false [d, e] info ⟨fun _ => .ok s, none⟩ =
      .ok ⟨nodeDigest (d.leaf info) (e.leaf info), s,
        [d.signed info ⟨s, ⟨0, 2, [e.leaf info]⟩⟩, e.signed info ⟨s, ⟨1, 2, [d.leaf info]⟩⟩]⟩ := by
  obtain ⟨t, built, root, first, second⟩ := HashTree.ofLeaves_pair (d.leaf info) (e.leaf info)
  have leaves : ([d, e].map fun d => d.leaf info) = [d.leaf info, e.leaf info] := rfl
  rw [Batch.sign, leaves, built, ← root]
  simp only [List.zipIdx_cons, List.zipIdx_nil, List.mapM_cons, List.mapM_nil, stamp, first, second,
    Bool.false_and]
  rfl

theorem Block.root_second (d : Draft) (l : Digest) (info : SignedInfo) (s : Bytes) :
    (d.signed info ⟨s, ⟨1, 2, [l]⟩⟩).root = .ok (nodeDigest l (d.leaf info)) := by
  have way : HashTree.route 1 2 = [.siblingLeft] := by
    rw [HashTree.route, HashTree.route]
    rfl
  have reached : (⟨1, 2, [l]⟩ : Witness).root? (d.leaf info) =
      some (nodeDigest l (d.leaf info)) := by
    change HashTree.climb (HashTree.route 1 2) (d.leaf info) [l] = _
    rw [way]
    rfl
  exact Block.root_eq_ok.mpr reached

/-- The second of two signed segments of one stream, with a wrong sequence
number, which the root does not show. -/
theorem Block.authentic_second_segment :
    ∃ (drafts : List Draft) (info : SignedInfo) (batch : Batch) (b : Block),
      drafts = [⟨⟨[⟨[97]⟩, .segment 0]⟩, 0, [1, 2]⟩, ⟨⟨[⟨[97]⟩, .segment 1]⟩, 7, [3]⟩] ∧
      b.name = ⟨[⟨[97]⟩, .segment 1]⟩ ∧ b.sequence = 7 ∧
      Batch.sign false drafts info ⟨fun _ => .ok [9], none⟩ = .ok batch ∧
      (∀ d ∈ drafts, LeafFits d.name info d.payload) ∧ LeafFits b.name b.info b.payload ∧
      b.root = .ok batch.root ∧
      ((∃ d ∈ drafts, b.name = d.name ∧ b.payload = d.payload ∧ b.info.Agrees info) ∨
        Collides (Batch.preimages drafts info ++ b.preimages)) ∧
      ∀ key, b.verify key ≠ .ok () := by
  let first : Draft := ⟨⟨[⟨[97]⟩, .segment 0]⟩, 0, [1, 2]⟩
  let second : Draft := ⟨⟨[⟨[97]⟩, .segment 1]⟩, 7, [3]⟩
  let info : SignedInfo := ⟨⟨.zero⟩, -1, .fragment, .keyName ⟨[⟨[]⟩]⟩, some 60, some 1⟩
  have fit : ∀ d ∈ [first, second], LeafFits d.name info d.payload := by
    intro d hd
    rcases List.mem_pair.mp hd with rfl | rfl <;>
      exact ⟨⟨by decide, by decide⟩, ⟨by decide, by decide⟩, by decide⟩
  have signed := Batch.sign_pair first second info [9]
  have reached := Block.root_second second (first.leaf info) info [9]
  have authentic := Block.authentic_or_collision signed fit (fit second (by simp)) reached
  refine ⟨[first, second], info, _, _, rfl, rfl, rfl, signed, fit, fit second (by simp), reached,
    authentic.1, ?_⟩
  intro key verified
  exact absurd (authentic.2 key verified 1 (by decide)) (by decide)

end NamedContent
