import Mathlib
import NamedContent.Proofs.HashTree.Ascent

/-!
# A witness is bound to its position

The root of a tree fixes, for every index, the one leaf and the one path that
lead to it. A walk with another leaf, another path or an index beyond the last
leaf ends in the same root only if two different pairs of digests, both hashed
for the tree or on the walk, have one node digest. Leaves in another order
therefore have another root.
-/

set_option autoImplicit false

namespace NamedContent

/-- Two different pairs of digests, both of them hashed, have the same node digest. -/
def PairsCollide (hashed : List Bytes) : Prop :=
  ∃ l r l' r', nodePreimage l r ∈ hashed ∧ nodePreimage l' r' ∈ hashed ∧ (l, r) ≠ (l', r') ∧
    nodeDigest l r = nodeDigest l' r'

theorem pairsCollide_of_collides {hashed : List Bytes}
    (pairs : ∀ m ∈ hashed, ∃ l r, m = nodePreimage l r) (h : Collides hashed) :
    PairsCollide hashed := by
  obtain ⟨m, hm, m', hm', apart, same⟩ := h
  obtain ⟨l, r, rfl⟩ := pairs m hm
  obtain ⟨l', r', rfl⟩ := pairs m' hm'
  refine ⟨l, r, l', r', hm, hm', ?_, same⟩
  rintro ⟨rfl, rfl⟩
  exact apart rfl

namespace HashTree

theorem climbPreimages_mem {turns : List Turn} {d : Digest} {path : List Digest} {m : Bytes}
    (h : m ∈ climbPreimages turns d path) : ∃ l r, m = nodePreimage l r := by
  fun_induction climbPreimages turns d path with
  | case1 turns d path ih => exact ih h
  | case2 turns d sibling path ih | case3 turns d sibling path ih =>
    rcases List.mem_cons.mp h with rfl | h
    · exact ⟨_, _, rfl⟩
    · exact ih h
  | case4 => simp at h

def hashed (t : HashTree) : List Bytes := preimagesAbove t.leaves

theorem hashed_mem {t : HashTree} {m : Bytes} (h : m ∈ t.hashed) : ∃ l r, m = nodePreimage l r := by
  obtain ⟨l, -, r, -, rfl⟩ := preimagesAbove_mem h
  exact ⟨l, r, rfl⟩

/-- The witness leads from this very leaf: its index is inside, the leaf is the
one there, and the path is that of the tree's own witness. -/
def Leads (t : HashTree) (leaf : Digest) (w : Witness) : Prop :=
  t.leaves[w.leafIndex.toNat]? = some leaf ∧
    ∃ own, t.witness? w.leafIndex.toNat = some own ∧ w.path = own.path

end HashTree

def Witness.hashed (w : Witness) (leaf : Digest) : List Bytes :=
  HashTree.climbPreimages (HashTree.route w.leafIndex.toNat w.leafCount.toNat) leaf w.path

namespace HashTree

section Fitting

variable {t : HashTree} {w : Witness} {leaf : Digest} (fits : w.leafCount.toNat = t.leafCount)
include fits

theorem root?_of_leads (leads : t.Leads leaf w) : w.root? leaf = some t.root := by
  obtain ⟨here, own, isOwn, path⟩ := leads
  obtain ⟨inside, rfl⟩ := witness?_eq_some.mp isOwn
  rw [root?_eq_some, fits, path]
  exact ⟨inside, (leaf_ascent t here).climbs⟩

theorem leads_of_root? (reached : w.root? leaf = some t.root) :
    t.Leads leaf w ∨ PairsCollide (t.hashed ++ w.hashed leaf) := by
  rw [root?_eq_some, fits] at reached
  obtain ⟨inside, climbed⟩ := reached
  by_cases clean : Collides (t.hashed ++ w.hashed leaf)
  · refine .inr (pairsCollide_of_collides ?_ clean)
    intro m mem
    exact (List.mem_append.mp mem).elim hashed_mem climbPreimages_mem
  · left
    have here := List.getElem?_eq_getElem inside
    have walked : climbPreimages (route w.leafIndex.toNat t.leafCount) leaf w.path ⊆
        t.hashed ++ w.hashed leaf := by
      rw [← fits]
      exact List.subset_append_right _ _
    obtain ⟨rfl, path⟩ := (leaf_ascent t here).unique clean (List.subset_append_left _ _)
      walked climbed
    exact ⟨here, _, witness?_eq_some.mpr ⟨inside, rfl⟩, path⟩

end Fitting

theorem leaves_eq_of_root {t other : HashTree} (count : other.leafCount = t.leafCount)
    (same : other.root = t.root) (clean : ¬Collides (t.hashed ++ other.hashed)) :
    other.leaves = t.leaves := by
  apply List.ext_getElem?
  intro i
  by_cases inside : i < t.leafCount
  · have here : t.leaves[i]? = some t.leaves[i] := List.getElem?_eq_getElem inside
    have inside' : i < other.leaves.length := Nat.lt_of_lt_of_eq inside count.symm
    have there : other.leaves[i]? = some other.leaves[i] := List.getElem?_eq_getElem inside'
    have ascent := leaf_ascent other there
    have climbed := ascent.climbs
    have walked := List.subset_append_of_subset_right t.hashed ascent.climbPreimages_subset
    rw [count] at climbed walked
    rw [same] at climbed
    have agree := (leaf_ascent t here).unique clean (List.subset_append_left _ _) walked climbed
    rw [here, there, agree.1]
  · have outside : t.leaves.length ≤ i := Nat.le_of_not_lt inside
    have outside' := (Nat.le_of_eq count).trans outside
    rw [List.getElem?_eq_none outside, List.getElem?_eq_none outside']

/-- Witnesses exist for the leaves and for nothing else. With a fitting leaf
count a witness leads from a leaf to the root exactly if the leaf is the one at
its index and the path is the tree's own, unless two pairs of digests hashed
for the tree or on the walk collide; the tree's own witnesses lead there
whatever collides. Other leaves, or the same in another order, have another
root, unless two hashed pairs collide. -/
theorem position_bound (t : HashTree) :
    (∀ index, (t.witness? index).isSome ↔ index < t.leafCount) ∧
    (∀ leaf (w : Witness), w.leafCount.toNat = t.leafCount →
      (t.Leads leaf w → w.root? leaf = some t.root) ∧
      (w.root? leaf = some t.root →
        t.Leads leaf w ∨ PairsCollide (t.hashed ++ w.hashed leaf))) ∧
    (t.leafCount < UInt64.size → ∀ index own, t.witness? index = some own →
      ∃ leaf, t.leaves[index]? = some leaf ∧ own.root? leaf = some t.root) ∧
    ∀ other : HashTree, other.leafCount = t.leafCount → other.leaves ≠ t.leaves →
      other.root ≠ t.root ∨ PairsCollide (t.hashed ++ other.hashed) := by
  refine ⟨fun index => witness?_isSome,
    fun leaf w fits => ⟨root?_of_leads fits, leads_of_root? fits⟩, ?_, ?_⟩
  · intro small index own isOwn
    obtain ⟨inside, rfl⟩ := witness?_eq_some.mp isOwn
    have here : t.leaves[index]? = some t.leaves[index] := List.getElem?_eq_getElem inside
    exact ⟨t.leaves[index], here, own_reaches small here⟩
  · intro other count different
    by_cases clean : Collides (t.hashed ++ other.hashed)
    · refine .inr (pairsCollide_of_collides ?_ clean)
      intro m mem
      exact (List.mem_append.mp mem).elim hashed_mem hashed_mem
    · exact .inl fun same => different (leaves_eq_of_root count same clean)

theorem levelsFrom_three (a b c : Digest) : levelsFrom [a, b, c] =
    [[a, b, c], [nodeDigest a b, c], [nodeDigest (nodeDigest a b) c]] := by
  simp [levelsFrom, pairUp]

/-- Three leaves: the last one is promoted and has one digest on its way. With
the first two in the other order the root is another one. -/
theorem position_bound_three :
    ∃ (a b c : Digest) (t other : HashTree), a ≠ b ∧ t.leaves = [a, b, c] ∧
      other.leaves = [b, a, c] ∧ (t.witness? 3).isSome = false ∧
      (⟨2, 3, [nodeDigest a b]⟩ : Witness).root? c = some t.root ∧
      (∃ own, t.witness? 1 = some own ∧ own.root? b = some t.root) ∧
      ((⟨1, 3, [b, c]⟩ : Witness).root? a = some t.root →
        PairsCollide (t.hashed ++ (⟨1, 3, [b, c]⟩ : Witness).hashed a)) ∧
      (other.root ≠ t.root ∨ PairsCollide (t.hashed ++ other.hashed)) := by
  obtain ⟨a, b, apart⟩ : ∃ a b : Digest, a ≠ b := ⟨.zero, sha256 [], by decide +kernel⟩
  let t : HashTree := ⟨[a, b, a], by simp, _, (levelsFrom_three a b a).symm⟩
  let other : HashTree := ⟨[b, a, a], by simp, _, (levelsFrom_three b a a).symm⟩
  have count : t.leafCount = 3 := rfl
  have path : siblings 2 t.levels = [nodeDigest a b] := by simp [t, siblings]
  obtain ⟨exist, walks, genuine, reordered⟩ := position_bound t
  refine ⟨a, b, a, t, other, apart, rfl, rfl, ?_, ?_, ?_, ?_, ?_⟩
  · exact Bool.eq_false_iff.mpr fun found => absurd ((exist 3).mp found) (by simp [count])
  · exact (walks a ⟨2, 3, [nodeDigest a b]⟩ rfl).1 ⟨rfl, _, rfl, path.symm⟩
  · obtain ⟨own, isOwn⟩ := Option.isSome_iff_exists.mp ((exist 1).mpr (by simp [count]))
    obtain ⟨leaf, here, reached⟩ := genuine (by simp [count, UInt64.size]) 1 own isOwn
    obtain rfl : b = leaf := Option.some.inj here
    exact ⟨own, isOwn, reached⟩
  · intro reached
    obtain ⟨here, -⟩ | collision := (walks a ⟨1, 3, [b, a]⟩ rfl).2 reached
    · exact absurd (Option.some.inj here).symm apart
    · exact collision
  · exact reordered other rfl fun same => apart (List.cons.inj same).1.symm

end HashTree

end NamedContent
