import NamedContent.Proofs.Encoding

/-!
# The byte strings behind a hash tree

Building a tree and walking up a witness both feed byte strings to SHA-256.
Every node of a tree is a leaf or the digest of such a string over two further
nodes. So a walk that ends in a node of the tree began in one, unless two of
the strings have one digest.
-/

set_option autoImplicit false

namespace NamedContent

/-- Two different members of the list have the same digest. -/
def Collides (hashed : List Bytes) : Prop :=
  ∃ m ∈ hashed, ∃ m' ∈ hashed, m ≠ m' ∧ sha256 m = sha256 m'

theorem eq_of_not_collides {hashed : List Bytes} (clean : ¬Collides hashed) {m m' : Bytes}
    (hm : m ∈ hashed) (hm' : m' ∈ hashed) (h : sha256 m = sha256 m') : m = m' := by
  by_contra apart
  exact clean ⟨m, hm, m', hm', apart, h⟩

namespace HashTree

def pairPreimages : List Digest → List Bytes
  | left :: right :: rest => nodePreimage left right :: pairPreimages rest
  | _ => []

def preimagesAbove (level : List Digest) : List Bytes :=
  if level.length ≤ 1 then [] else pairPreimages level ++ preimagesAbove (pairUp level)
termination_by level.length
decreasing_by rw [pairUp_length]; omega

def climbPreimages : List Turn → Digest → List Digest → List Bytes
  | .promoted :: turns, d, path => climbPreimages turns d path
  | .siblingLeft :: turns, d, sibling :: path =>
    nodePreimage sibling d :: climbPreimages turns (nodeDigest sibling d) path
  | .siblingRight :: turns, d, sibling :: path =>
    nodePreimage d sibling :: climbPreimages turns (nodeDigest d sibling) path
  | _, _, _ => []

theorem climbPreimages_length (turns : List Turn) (d : Digest) (path : List Digest) :
    (climbPreimages turns d path).length ≤ turns.length := by
  fun_induction climbPreimages turns d path with
  | case1 turns d path ih => exact ih.trans (Nat.le_succ _)
  | case2 turns d sibling path ih | case3 turns d sibling path ih => exact Nat.succ_le_succ ih
  | case4 => exact Nat.zero_le _

def nodes (level : List Digest) : List Digest := (levelsFrom level).flatten

theorem nodes_eq (level : List Digest) :
    nodes level = if level.length ≤ 1 then level else level ++ nodes (pairUp level) := by
  rw [nodes, levelsFrom]
  split
  · simp
  · rw [List.flatten_cons, nodes]

theorem pairUp_eq (level : List Digest) :
    pairUp level = (pairPreimages level).map sha256 ++ level.drop (level.length / 2 * 2) := by
  fun_induction pairUp level with
  | case1 left right rest ih =>
    have half : (left :: right :: rest).length / 2 * 2 = rest.length / 2 * 2 + 2 := by
      simp only [List.length_cons]
      omega
    rw [ih, pairPreimages, half]
    rfl
  | case2 rest h =>
    cases rest with
    | nil => simp [pairPreimages]
    | cons a rest =>
      cases rest with
      | nil => simp [pairPreimages]
      | cons b rest => exact absurd rfl (h a b rest)

theorem pairUp_hashed {level : List Digest} {d : Digest} (h : d ∈ pairUp level) :
    d ∈ level ∨ ∃ m ∈ pairPreimages level, d = sha256 m := by
  rw [pairUp_eq, List.mem_append] at h
  rcases h with h | h
  · obtain ⟨m, hm, rfl⟩ := List.mem_map.mp h
    exact .inr ⟨m, hm, rfl⟩
  · exact .inl (List.mem_of_mem_drop h)

theorem pairPreimages_mem {level : List Digest} {m : Bytes} (h : m ∈ pairPreimages level) :
    ∃ l ∈ level, ∃ r ∈ level, m = nodePreimage l r := by
  fun_induction pairPreimages level with
  | case1 left right rest ih =>
    rcases List.mem_cons.mp h with rfl | h
    · exact ⟨left, by simp, right, by simp, rfl⟩
    · obtain ⟨l, hl, r, hr, rfl⟩ := ih h
      exact ⟨l, by simp [hl], r, by simp [hr], rfl⟩
  | case2 => simp at h

theorem nodes_hashed {level : List Digest} {d : Digest} (h : d ∈ nodes level) :
    d ∈ level ∨ ∃ m ∈ preimagesAbove level, d = sha256 m := by
  fun_induction preimagesAbove level with
  | case1 level short => exact .inl (by simpa [nodes_eq, short] using h)
  | case2 level long ih =>
    rw [nodes_eq, if_neg long, List.mem_append] at h
    rcases h with h | h
    · exact .inl h
    · rcases ih h with above | ⟨m, hm, rfl⟩
      · -- a node without partner is on both levels
        obtain old | ⟨m, hm, rfl⟩ := pairUp_hashed above
        · exact .inl old
        · exact .inr ⟨m, by simp [hm], rfl⟩
      · exact .inr ⟨m, by simp [hm], rfl⟩

theorem preimagesAbove_mem {level : List Digest} {m : Bytes} (h : m ∈ preimagesAbove level) :
    ∃ l ∈ nodes level, ∃ r ∈ nodes level, m = nodePreimage l r := by
  fun_induction preimagesAbove level with
  | case1 => simp at h
  | case2 level long ih =>
    rw [nodes_eq, if_neg long]
    rcases List.mem_append.mp h with h | h
    · obtain ⟨l, hl, r, hr, rfl⟩ := pairPreimages_mem h
      exact ⟨l, by simp [hl], r, by simp [hr], rfl⟩
    · obtain ⟨l, hl, r, hr, rfl⟩ := ih h
      exact ⟨l, by simp [hl], r, by simp [hr], rfl⟩

theorem levelsFrom_last (level : List Digest) (h : level ≠ []) :
    ∃ root, (levelsFrom level).getLast? = some [root] := by
  fun_induction levelsFrom level with
  | case1 level short =>
    have one : level.length = 1 := by
      have := List.length_pos_iff.mpr h
      omega
    obtain ⟨root, rfl⟩ := List.length_eq_one_iff.mp one
    exact ⟨root, rfl⟩
  | case2 level long ih =>
    have above : pairUp level ≠ [] := by
      rw [← List.length_pos_iff, pairUp_length]
      omega
    obtain ⟨root, last⟩ := ih above
    exact ⟨root, by rw [List.getLast?_cons, last]; rfl⟩

theorem root_mem_nodes (t : HashTree) : t.root ∈ nodes t.leaves := by
  obtain ⟨root, last⟩ := levelsFrom_last t.leaves t.nonempty
  have isRoot : t.root = root := by simp [HashTree.root, t.levels_eq, last]
  rw [isRoot, nodes, List.mem_flatten]
  exact ⟨[root], List.mem_of_getLast? last, by simp⟩

section Descent

variable {inputs : List Bytes} {hashed : List Bytes}

/-- A hashed string whose digest is in the tree is one that the tree was built from. -/
theorem built_from (clean : ¬Collides hashed) (hi : inputs ⊆ hashed)
    (ha : preimagesAbove (inputs.map sha256) ⊆ hashed) {m : Bytes} (hm : m ∈ hashed)
    (h : sha256 m ∈ nodes (inputs.map sha256)) :
    m ∈ inputs ∨ m ∈ preimagesAbove (inputs.map sha256) := by
  rcases nodes_hashed h with leaf | ⟨m', hm', same⟩
  · obtain ⟨m', hm', same⟩ := List.mem_map.mp leaf
    exact .inl (eq_of_not_collides clean hm (hi hm') same.symm ▸ hm')
  · exact .inr (eq_of_not_collides clean hm (ha hm') same ▸ hm')

variable (apart : ∀ m ∈ inputs, ∀ l r, m ≠ nodePreimage l r)
include apart

theorem children_mem_nodes (clean : ¬Collides hashed) (hi : inputs ⊆ hashed)
    (ha : preimagesAbove (inputs.map sha256) ⊆ hashed) {l r : Digest}
    (hm : nodePreimage l r ∈ hashed) (h : nodeDigest l r ∈ nodes (inputs.map sha256)) :
    l ∈ nodes (inputs.map sha256) ∧ r ∈ nodes (inputs.map sha256) := by
  rcases built_from clean hi ha hm h with leaf | inner
  · exact absurd rfl (apart _ leaf l r)
  · obtain ⟨l', hl, r', hr, same⟩ := preimagesAbove_mem inner
    obtain ⟨rfl, rfl⟩ := nodePreimage_inj same
    exact ⟨hl, hr⟩

/-- A walk that ends in the tree began in the tree. The claimed turns are
free: they need not be those of any leaf of this tree. -/
theorem climb_descends (clean : ¬Collides hashed) (hi : inputs ⊆ hashed)
    (ha : preimagesAbove (inputs.map sha256) ⊆ hashed) {turns : List Turn} {d root : Digest}
    {path : List Digest} (hw : climbPreimages turns d path ⊆ hashed)
    (reached : climb turns d path = some root) (h : root ∈ nodes (inputs.map sha256)) :
    d ∈ nodes (inputs.map sha256) := by
  -- the induction goes up with the walk, the membership comes back down
  fun_induction climb turns d path with
  | case1 d => exact Option.some.inj reached ▸ h
  | case2 => simp at reached
  | case3 turns d path ih => exact ih hw reached
  | case4 turns d sibling path ih =>
    rw [climbPreimages, List.cons_subset] at hw
    exact (children_mem_nodes apart clean hi ha hw.1 (ih hw.2 reached)).2
  | case5 turns d sibling path ih =>
    rw [climbPreimages, List.cons_subset] at hw
    exact (children_mem_nodes apart clean hi ha hw.1 (ih hw.2 reached)).1
  | case6 => simp at reached

end Descent

end HashTree

end NamedContent
