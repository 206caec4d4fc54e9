import Mathlib
import NamedContent.Proofs.HashTree.Preimages

/-!
# Ways from a leaf to the root

A tree is built level by level, while a walk follows the turns that an index
and a width give it. Both meet in the notion of an ascent: the way from one
node of a level to the root, with its turns and with the siblings it passes.
Every node has one, and what a walk with other siblings does is compared with
it turn by turn.
-/

set_option autoImplicit false

namespace NamedContent

namespace HashTree

theorem pairUp_pair {level : List Digest} {i : Nat} {l r : Digest} (left : level[2 * i]? = some l)
    (right : level[2 * i + 1]? = some r) :
    (pairUp level)[i]? = some (nodeDigest l r) ∧ nodePreimage l r ∈ pairPreimages level := by
  fun_induction pairUp level generalizing i with
  | case1 a b rest ih =>
    cases i with
    | zero =>
      obtain rfl : a = l := Option.some.inj left
      obtain rfl : b = r := Option.some.inj right
      exact ⟨rfl, List.mem_cons_self⟩
    | succ i =>
      obtain ⟨above, hashed⟩ := ih (i := i) left right
      exact ⟨above, List.mem_cons_of_mem _ hashed⟩
  | case2 rest short =>
    rcases rest with _ | ⟨a, _ | ⟨b, rest⟩⟩
    · simp at left
    · simp at right
    · exact absurd rfl (short a b rest)

theorem pairUp_last {level : List Digest} {i : Nat} {d : Digest} (here : level[2 * i]? = some d)
    (last : level[2 * i + 1]? = none) : (pairUp level)[i]? = some d := by
  fun_induction pairUp level generalizing i with
  | case1 a b rest ih =>
    cases i with
    | zero => simp at last
    | succ i => exact ih (i := i) here last
  | case2 rest short =>
    rcases rest with _ | ⟨a, _ | ⟨b, rest⟩⟩
    · simp at here
    · cases i with
      | zero => exact here
      | succ i => simp at here
    · exact absurd rfl (short a b rest)

theorem route_narrow {index width : Nat} (narrow : width ≤ 1) : route index width = [] := by
  rw [route, if_pos narrow]

section Route

variable {index width : Nat} (wide : 1 < width)
include wide

theorem route_left (odd : index % 2 = 1) :
    route index width = .siblingLeft :: route (index / 2) ((width + 1) / 2) := by
  rw [route, if_neg (by omega), if_pos odd]

theorem route_right (even : index % 2 = 0) (inner : index + 1 < width) :
    route index width = .siblingRight :: route (index / 2) ((width + 1) / 2) := by
  rw [route, if_neg (by omega), if_neg (by omega), if_pos inner]

theorem route_promoted (even : index % 2 = 0) (last : width ≤ index + 1) :
    route index width = .promoted :: route (index / 2) ((width + 1) / 2) := by
  rw [route, if_neg (by omega), if_neg (by omega), if_neg (by omega)]

end Route

/-- The way from the node `d` at an index of a level up to the root: its turns,
and the siblings on it from the bottom to the top. -/
inductive Ascent : List Digest → Nat → List Turn → Digest → List Digest → Digest → Prop
  | top (root : Digest) : Ascent [root] 0 [] root [] root
  | left {level : List Digest} {index : Nat} {turns : List Turn} {sibling d root : Digest}
      {path : List Digest} (long : 1 < level.length)
      (hashed : nodePreimage sibling d ∈ pairPreimages level)
      (above : Ascent (pairUp level) (index / 2) turns (nodeDigest sibling d) path root) :
      Ascent level index (.siblingLeft :: turns) d (sibling :: path) root
  | right {level : List Digest} {index : Nat} {turns : List Turn} {d sibling root : Digest}
      {path : List Digest} (long : 1 < level.length)
      (hashed : nodePreimage d sibling ∈ pairPreimages level)
      (above : Ascent (pairUp level) (index / 2) turns (nodeDigest d sibling) path root) :
      Ascent level index (.siblingRight :: turns) d (sibling :: path) root
  | promoted {level : List Digest} {index : Nat} {turns : List Turn} {d root : Digest}
      {path : List Digest} (long : 1 < level.length)
      (above : Ascent (pairUp level) (index / 2) turns d path root) :
      Ascent level index (.promoted :: turns) d path root

theorem preimagesAbove_long {level : List Digest} (long : 1 < level.length) :
    preimagesAbove level = pairPreimages level ++ preimagesAbove (pairUp level) := by
  rw [preimagesAbove, if_neg (by omega)]

theorem exists_ascent {level : List Digest} {index : Nat} {d : Digest}
    (here : level[index]? = some d) :
    ∃ root, (levelsFrom level).getLast? = some [root] ∧
      Ascent level index (route index level.length) d (siblings index (levelsFrom level)) root := by
  fun_induction levelsFrom level generalizing index d with
  | case1 level short =>
    have inside : index < level.length := (List.getElem?_eq_some_iff.mp here).1
    obtain ⟨root, rfl⟩ := List.length_eq_one_iff.mp (show level.length = 1 by omega)
    obtain rfl : index = 0 := by simpa using inside
    obtain rfl : root = d := Option.some.inj here
    rw [route_narrow short]
    exact ⟨root, rfl, .top root⟩
  | case2 level short ih =>
    have long : 1 < level.length := by omega
    have inside : index < level.length := (List.getElem?_eq_some_iff.mp here).1
    have last : ∀ root, (levelsFrom (pairUp level)).getLast? = some [root] →
        (level :: levelsFrom (pairUp level)).getLast? = some [root] := by
      intro root last
      rw [List.getLast?_cons, last]
      rfl
    simp only [siblings]
    -- the parity of the index and the end of the level decide where the sibling is
    by_cases odd : index % 2 = 1
    · have back : index = 2 * (index / 2) + 1 := by omega
      have before : level[index - 1]? = some level[index - 1] :=
        List.getElem?_eq_getElem (by omega)
      obtain ⟨above, hashed⟩ := pairUp_pair (l := level[index - 1]) (r := d) (i := index / 2)
        (by rw [← before]; congr 1; omega) (by rw [← here]; congr 1; omega)
      obtain ⟨root, top, ascent⟩ := ih above
      rw [pairUp_length] at ascent
      rw [route_left long odd, if_pos odd, before]
      exact ⟨root, last root top, .left long hashed ascent⟩
    · have even : index % 2 = 0 := by omega
      have here' : level[2 * (index / 2)]? = some d := by rw [← here]; congr 1; omega
      rw [if_neg odd]
      by_cases inner : index + 1 < level.length
      · have after : level[index + 1]? = some level[index + 1] := List.getElem?_eq_getElem inner
        obtain ⟨above, hashed⟩ := pairUp_pair (r := level[index + 1]) here'
          (by rw [← after]; congr 1; omega)
        obtain ⟨root, top, ascent⟩ := ih above
        rw [pairUp_length] at ascent
        rw [route_right long even inner, after]
        exact ⟨root, last root top, .right long hashed ascent⟩
      · have after : level[index + 1]? = none := List.getElem?_eq_none (by omega)
        obtain ⟨root, top, ascent⟩ := ih (pairUp_last here' (by rw [← after]; congr 1; omega))
        rw [pairUp_length] at ascent
        rw [route_promoted long even (by omega), after]
        exact ⟨root, last root top, .promoted long ascent⟩

namespace Ascent

variable {level : List Digest} {index : Nat} {turns : List Turn} {d root : Digest}
  {path : List Digest}

theorem climbs (ascent : Ascent level index turns d path root) :
    climb turns d path = some root := by
  induction ascent with
  | top => rfl
  | left _ _ _ ih => exact ih
  | right _ _ _ ih => exact ih
  | promoted _ _ ih => exact ih

theorem climbPreimages_subset (ascent : Ascent level index turns d path root) :
    climbPreimages turns d path ⊆ preimagesAbove level := by
  induction ascent with
  | top => simp [climbPreimages]
  | left long hashed _ ih | right long hashed _ ih =>
    rw [preimagesAbove_long long, climbPreimages]
    exact List.cons_subset.mpr
      ⟨List.mem_append_left _ hashed, List.subset_append_of_subset_right _ ih⟩
  | promoted long _ ih =>
    rw [preimagesAbove_long long, climbPreimages]
    exact List.subset_append_of_subset_right _ ih

/-- A walk with the same turns that ends in the root has the same start and the
same siblings, if no two different hashed strings have one digest. -/
theorem unique {hashed : List Bytes} (clean : ¬Collides hashed)
    (ascent : Ascent level index turns d path root) (built : preimagesAbove level ⊆ hashed)
    {x : Digest} {other : List Digest} (walked : climbPreimages turns x other ⊆ hashed)
    (reached : climb turns x other = some root) : x = d ∧ other = path := by
  -- both walks arrive at the root; the induction brings the agreement down turn by turn
  induction ascent generalizing x other with
  | top root =>
    cases other with
    | nil => exact ⟨Option.some.inj reached, rfl⟩
    | cons s rest => contradiction
  | left long pair _ ih | right long pair _ ih =>
    rw [preimagesAbove_long long] at built
    obtain ⟨here, above⟩ := List.append_subset.mp built
    cases other with
    | nil => contradiction
    | cons s rest =>
      obtain ⟨mem, later⟩ := List.cons_subset.mp walked
      obtain ⟨digests, rfl⟩ := ih above later reached
      obtain ⟨rfl, rfl⟩ := nodePreimage_inj (eq_of_not_collides clean mem (here pair) digests)
      exact ⟨rfl, rfl⟩
  | promoted long _ ih =>
    rw [preimagesAbove_long long] at built
    exact ih (List.append_subset.mp built).2 walked reached

end Ascent

theorem leaf_ascent (t : HashTree) {index : Nat} {d : Digest} (leaf : t.leaves[index]? = some d) :
    Ascent t.leaves index (route index t.leafCount) d (siblings index t.levels) t.root := by
  obtain ⟨root, last, ascent⟩ := exists_ascent leaf
  have isRoot : t.root = root := by simp [HashTree.root, t.levels_eq, last]
  rw [isRoot, t.levels_eq]
  exact ascent

def own (t : HashTree) (index : Nat) : Witness :=
  ⟨UInt64.ofNat index, UInt64.ofNat t.leafCount, siblings index t.levels⟩

theorem root?_eq_some {w : Witness} {leaf root : Digest} : w.root? leaf = some root ↔
    w.leafIndex.toNat < w.leafCount.toNat ∧
      climb (route w.leafIndex.toNat w.leafCount.toNat) leaf w.path = some root := by
  rw [Witness.root?, ← UInt64.lt_iff_toNat_lt]
  split <;> simp_all

theorem witness?_own {t : HashTree} {index : Nat} (inside : index < t.leafCount) :
    t.witness? index = some (t.own index) :=
  if_pos inside

theorem witness?_eq_some {t : HashTree} {index : Nat} {w : Witness} :
    t.witness? index = some w ↔ index < t.leafCount ∧ w = t.own index := by
  rw [witness?, own]
  split
  · simp_all [eq_comm]
  · simp_all

theorem witness?_isSome {t : HashTree} {index : Nat} :
    (t.witness? index).isSome ↔ index < t.leafCount := by
  rw [witness?]
  split <;> simp_all

section Own

variable {t : HashTree} {index : Nat} (inside : index < t.leafCount)
  (small : t.leafCount < UInt64.size)

include small in
theorem own_leafCount : (t.own index).leafCount.toNat = t.leafCount :=
  UInt64.toNat_ofNat_of_lt' small

include inside small in
theorem own_leafIndex : (t.own index).leafIndex.toNat = index :=
  UInt64.toNat_ofNat_of_lt' (inside.trans small)

include small in
theorem own_reaches {leaf : Digest} (here : t.leaves[index]? = some leaf) :
    (t.own index).root? leaf = some t.root := by
  have inside : index < t.leafCount := (List.getElem?_eq_some_iff.mp here).1
  rw [root?_eq_some, own_leafIndex inside small, own_leafCount small]
  exact ⟨inside, (leaf_ascent t here).climbs⟩

end Own

def siblingCount (turns : List Turn) : Nat := turns.countP (· ≠ .promoted)

theorem climb_isSome_iff {turns : List Turn} {d : Digest} {path : List Digest} :
    (climb turns d path).isSome ↔ path.length = siblingCount turns := by
  fun_induction climb turns d path with
  | case1 => simp [siblingCount]
  | case2 => simp [siblingCount]
  | case3 turns d path ih => simpa [siblingCount] using ih
  | case4 turns d sibling path ih => simpa [siblingCount] using ih
  | case5 turns d sibling path ih => simpa [siblingCount] using ih
  | case6 turns d _ => simp_all [siblingCount]

theorem climb_length {turns : List Turn} {d root : Digest} {path : List Digest}
    (reached : climb turns d path = some root) : path.length = siblingCount turns :=
  climb_isSome_iff.mp (Option.isSome_of_eq_some reached)

theorem clog_wide {width : Nat} (wide : 1 < width) :
    Nat.clog 2 width = Nat.clog 2 ((width + 1) / 2) + 1 :=
  Nat.clog_of_two_le (by omega) wide

theorem siblingCount_first (width : Nat) : siblingCount (route 0 width) = Nat.clog 2 width := by
  induction width using Nat.strong_induction_on with
  | _ width ih =>
    by_cases wide : 1 < width
    · have above := ih ((width + 1) / 2) (by omega)
      rw [route_right wide rfl (by omega), clog_wide wide, ← above]
      simp [siblingCount]
    · rw [route_narrow (by omega), Nat.clog_of_right_le_one (by omega)]
      rfl

/-- The leaf count of a witness has sixty-four bits. That of the first leaf of
a larger tree is cut off, so that its walk has fewer levels than its path. -/
theorem leafCount_lt_of_reaches {t : HashTree} {first : Digest} {own : Witness}
    (leaf : t.leaves[0]? = some first) (isOwn : t.witness? 0 = some own)
    (reached : own.root? first = some t.root) : t.leafCount < UInt64.size := by
  obtain ⟨-, rfl⟩ := witness?_eq_some.mp isOwn
  obtain ⟨positive, climbed⟩ := root?_eq_some.mp reached
  have start : (t.own 0).leafIndex.toNat = 0 := rfl
  have cut : (t.own 0).leafCount.toNat = t.leafCount % 2 ^ 64 := UInt64.toNat_ofNat'
  rw [start, cut] at positive climbed
  have levels : Nat.clog 2 t.leafCount = Nat.clog 2 (t.leafCount % 2 ^ 64) := by
    rw [← siblingCount_first, ← siblingCount_first, ← climb_length climbed]
    exact (climb_length (leaf_ascent t leaf).climbs).symm
  have few : Nat.clog 2 (t.leafCount % 2 ^ 64) ≤ 64 :=
    Nat.clog_le_of_le_pow (Nat.mod_lt _ (by decide)).le
  have bound : t.leafCount ≤ 2 ^ 64 := Nat.clog_le_iff_le_pow (by decide) |>.mp (levels ▸ few)
  rcases Nat.lt_or_eq_of_le bound with small | eq
  · exact small
  · rw [eq, Nat.mod_self] at positive
    contradiction

end HashTree

end NamedContent
