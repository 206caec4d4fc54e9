import NamedContent.Block

/-!
# The hash tree of a batch

Leaves and inner nodes are digests of byte strings that begin with different
bytes. Levels are built from the bottom; a node without a partner moves up
unchanged. The shape of the tree, and with it the way from a leaf to the root,
is given by the number of leaves alone.
-/

set_option autoImplicit false

namespace NamedContent

def leafPreimage (name : Name) (info : SignedInfo) (payload : Bytes) : Bytes :=
  0 :: (name.encoding ++ info.encoding ++ counted payload)

def nodePreimage (left right : Digest) : Bytes := 1 :: (left.bytes ++ right.bytes)

def leafDigest (name : Name) (info : SignedInfo) (payload : Bytes) : Digest :=
  sha256 (leafPreimage name info payload)

def nodeDigest (left right : Digest) : Digest := sha256 (nodePreimage left right)

namespace HashTree

/-- The level above: one node for each pair, and a last one without partner as it is. -/
def pairUp : List Digest → List Digest
  | left :: right :: rest => nodeDigest left right :: pairUp rest
  | rest => rest

theorem pairUp_length (level : List Digest) :
    (pairUp level).length = (level.length + 1) / 2 := by
  fun_induction pairUp level with
  | case1 left right rest ih => simp [ih]; omega
  | case2 rest h =>
    match rest, h with
    | [], _ => simp
    | [_], _ => simp
    | a :: b :: rest, h => exact absurd rfl (h a b rest)

def levelsFrom (level : List Digest) : List (List Digest) :=
  if level.length ≤ 1 then [level] else level :: levelsFrom (pairUp level)
termination_by level.length
decreasing_by rw [pairUp_length]; omega

inductive Turn where
  | siblingLeft
  | siblingRight
  | promoted
  deriving DecidableEq, Repr

/-- The turns from the node at `index` in a level of `width` nodes to the root. -/
def route (index width : Nat) : List Turn :=
  if width ≤ 1 then []
  else
    let turn :=
      if index % 2 = 1 then .siblingLeft
      else if index + 1 < width then .siblingRight
      else .promoted
    turn :: route (index / 2) ((width + 1) / 2)
termination_by width

/-- Goes up by the turns with one digest of the path for each sibling. There
is no result if the path has too few or too many digests. -/
def climb : List Turn → Digest → List Digest → Option Digest
  | [], d, [] => some d
  | [], _, _ :: _ => none
  | .promoted :: turns, d, path => climb turns d path
  | .siblingLeft :: turns, d, sibling :: path => climb turns (nodeDigest sibling d) path
  | .siblingRight :: turns, d, sibling :: path => climb turns (nodeDigest d sibling) path
  | _ :: _, _, [] => none

def siblings : Nat → List (List Digest) → List Digest
  | _, [] => []
  | index, level :: above =>
    (if index % 2 = 1 then level[index - 1]? else level[index + 1]?).toList ++
      siblings (index / 2) above

end HashTree

/-- A tree over at least one leaf. Its levels are kept, so that a way up is
read off without hashing again. -/
structure HashTree where
  leaves : List Digest
  nonempty : leaves ≠ []
  levels : List (List Digest)
  levels_eq : levels = HashTree.levelsFrom leaves

namespace HashTree

def ofLeaves? (leaves : List Digest) : Option HashTree :=
  if h : leaves ≠ [] then some ⟨leaves, h, levelsFrom leaves, rfl⟩ else none

def root (t : HashTree) : Digest := (t.levels.getLast?.bind List.head?).getD .zero

def leafCount (t : HashTree) : Nat := t.leaves.length

def depth (t : HashTree) : Nat := t.levels.length - 1

def witness? (t : HashTree) (index : Nat) : Option Witness :=
  if index < t.leafCount then
    some ⟨UInt64.ofNat index, UInt64.ofNat t.leafCount, siblings index t.levels⟩
  else none

end HashTree

/-- The root that a leaf reaches with this witness, if the witness fits a tree
of its leaf count. -/
def Witness.root? (w : Witness) (leaf : Digest) : Option Digest :=
  if w.leafIndex < w.leafCount then
    HashTree.climb (HashTree.route w.leafIndex.toNat w.leafCount.toNat) leaf w.path
  else none

end NamedContent
