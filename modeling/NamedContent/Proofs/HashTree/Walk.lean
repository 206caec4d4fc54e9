import Mathlib
import NamedContent.Proofs.HashTree.Ascent

/-!
# Walks over witnesses of any origin

Nothing is known of a witness that comes from elsewhere: its index, its leaf
count and its path may be anything. The walk is taken here once more in
sixty-four-bit words, with every sum checked and with a record of what is
hashed. No check ever fails, since the index stays below the width from level
to level, and there are never more levels than a word has bits.
-/

set_option autoImplicit false

namespace NamedContent

namespace HashTree

def sum? (a b : UInt64) : Option UInt64 :=
  if a.toNat + b.toNat < UInt64.size then some (a + b) else none

theorem sum?_eq {a b : UInt64} (fits : a.toNat + b.toNat < UInt64.size) :
    sum? a b = some (a + b) ∧ (a + b).toNat = a.toNat + b.toNat :=
  ⟨if_pos fits, (UInt64.toNat_add a b).trans (Nat.mod_eq_of_lt fits)⟩

/-- A level that the walk comes to: its place on it and how many nodes there are. -/
structure Rung where
  index : UInt64
  width : UInt64
  deriving DecidableEq, Repr

namespace Rung

def turn? (r : Rung) : Option Turn :=
  if r.index % 2 = 1 then some .siblingLeft
  else (sum? r.index 1).map fun next => if next < r.width then .siblingRight else .promoted

def above? (r : Rung) : Option Rung :=
  (sum? (r.width / 2) (r.width % 2)).map fun width => ⟨r.index / 2, width⟩

end Rung

/-- The levels below the root with the turn on each of them, unless a sum does
not fit a word or there are more levels than the limit. -/
def ladder? : Nat → Rung → Option (List (Rung × Turn))
  | 0, r => if r.width ≤ 1 then some [] else none
  | limit+1, r =>
    if r.width ≤ 1 then some []
    else do
      let turn ← r.turn?
      let above ← r.above?
      let rest ← ladder? limit above
      return (r, turn) :: rest

theorem route_wide (index : Nat) {width : Nat} (wide : 1 < width) : ∃ turn,
    route index width = turn :: route (index / 2) ((width + 1) / 2) ∧
    turn = if index % 2 = 1 then .siblingLeft
      else if index + 1 < width then .siblingRight else .promoted := by
  rw [route, if_neg (by omega)]
  exact ⟨_, rfl, rfl⟩

namespace Rung

variable {r : Rung} (inside : r.index < r.width)
include inside

theorem turn?_eq : r.turn? = some (if r.index.toNat % 2 = 1 then .siblingLeft
    else if r.index.toNat + 1 < r.width.toNat then .siblingRight else .promoted) := by
  have below := UInt64.lt_iff_toNat_lt.mp inside
  have room := r.width.toNat_lt_size
  obtain ⟨sum, value⟩ := sum?_eq (a := r.index) (b := 1) (by
    show r.index.toNat + 1 < _
    omega)
  have parity : r.index % 2 = 1 ↔ r.index.toNat % 2 = 1 := by
    rw [← UInt64.toNat_inj, UInt64.toNat_mod]
    rfl
  have next : r.index + 1 < r.width ↔ r.index.toNat + 1 < r.width.toNat := by
    rw [UInt64.lt_iff_toNat_lt, value]
    rfl
  rw [turn?, sum]
  simp only [parity, next, Option.map_some]
  split <;> rfl

theorem above?_eq (wide : 1 < r.width.toNat) : ∃ above, r.above? = some above ∧
    above.index < above.width ∧ above.index.toNat = r.index.toNat / 2 ∧
    above.width.toNat = (r.width.toNat + 1) / 2 := by
  have below := UInt64.lt_iff_toNat_lt.mp inside
  have room := r.width.toNat_lt_size
  have half : (r.width / 2).toNat = r.width.toNat / 2 := UInt64.toNat_div ..
  have odd : (r.width % 2).toNat = r.width.toNat % 2 := UInt64.toNat_mod ..
  obtain ⟨sum, value⟩ := sum?_eq (a := r.width / 2) (b := r.width % 2) (by omega)
  have index : (r.index / 2).toNat = r.index.toNat / 2 := UInt64.toNat_div ..
  have width : (r.width / 2 + r.width % 2).toNat = (r.width.toNat + 1) / 2 := by omega
  refine ⟨_, by rw [above?, sum]; rfl, ?_, index, width⟩
  rw [UInt64.lt_iff_toNat_lt, index, width]
  omega

end Rung

/-- From an index below the width all sums fit, the limit is kept if the width
is at most the power of two, and the turns are those of the route. -/
theorem ladder?_eq {limit : Nat} {r : Rung} (inside : r.index < r.width)
    (low : r.width.toNat ≤ 2 ^ limit) : ∃ ladder, ladder? limit r = some ladder ∧
      ladder.map Prod.snd = route r.index.toNat r.width.toNat ∧ ladder.length ≤ limit ∧
      ∀ step ∈ ladder, step.1.index < step.1.width := by
  -- the width is halved on each level, and the index stays below it
  induction limit generalizing r with
  | zero =>
    have narrow : r.width ≤ 1 := UInt64.le_iff_toNat_le.mpr low
    exact ⟨[], if_pos narrow, (route_narrow low).symm, le_rfl, nofun⟩
  | succ limit ih =>
    by_cases narrow : r.width ≤ 1
    · exact ⟨[], if_pos narrow, (route_narrow (UInt64.le_iff_toNat_le.mp narrow)).symm,
        Nat.zero_le _, nofun⟩
    · have wide : 1 < r.width.toNat := by
        rw [UInt64.le_iff_toNat_le] at narrow
        exact Nat.lt_of_not_le narrow
      obtain ⟨above, risen, inside', index, width⟩ := r.above?_eq inside wide
      obtain ⟨rest, climbed, turns, short, inner⟩ := ih inside' (by rw [width]; omega)
      obtain ⟨turn, route, isTurn⟩ := route_wide r.index.toNat wide
      refine ⟨(r, turn) :: rest, ?_, ?_, Nat.succ_le_succ short, ?_⟩
      · rw [ladder?, if_neg narrow, r.turn?_eq inside, ← isTurn, risen]
        simp [climbed]
      · rw [List.map_cons, turns, index, width, route]
      · exact List.forall_mem_cons.mpr ⟨inside, inner⟩

/-- Goes up by the turns and keeps a record of what it hashes. -/
def climbRecorded : List Turn → Digest → List Digest → Option Digest × List Bytes
  | [], d, [] => (some d, [])
  | [], _, _ :: _ => (none, [])
  | .promoted :: turns, d, path => climbRecorded turns d path
  | .siblingLeft :: turns, d, sibling :: path =>
    let node := nodePreimage sibling d
    let (root, hashed) := climbRecorded turns (sha256 node) path
    (root, node :: hashed)
  | .siblingRight :: turns, d, sibling :: path =>
    let node := nodePreimage d sibling
    let (root, hashed) := climbRecorded turns (sha256 node) path
    (root, node :: hashed)
  | _ :: _, _, [] => (none, [])

theorem climbRecorded_eq (turns : List Turn) (d : Digest) (path : List Digest) :
    climbRecorded turns d path = (climb turns d path, climbPreimages turns d path) := by
  fun_induction climb turns d path with
  | case1 | case2 => rfl
  | case3 turns d path ih => exact ih
  | case4 turns d sibling path ih | case5 turns d sibling path ih =>
    rw [climbRecorded, climbPreimages]
    exact congrArg (fun found => (found.1, _ :: found.2)) ih
  | case6 turns d _ =>
    rename_i promoted
    cases turn : ‹Turn› with
    | promoted => exact absurd turn promoted
    | siblingLeft | siblingRight => rfl

def levelWidth (count k : Nat) : Nat := (count + 2 ^ k - 1) / 2 ^ k

def partner (index : Nat) : Nat := if index % 2 = 1 then index - 1 else index + 1

/-- On how many levels below the root the node above a leaf has a sibling, in a
tree of `count` leaves. -/
def siblingLevels (index count : Nat) : Nat :=
  (List.range (Nat.clog 2 count)).countP fun k => partner (index / 2 ^ k) < levelWidth count k

theorem levelWidth_zero (count : Nat) : levelWidth count 0 = count := by simp [levelWidth]

theorem levelWidth_succ (count k : Nat) :
    levelWidth count (k + 1) = levelWidth ((count + 1) / 2) k := by
  have positive : 0 < 2 ^ k := Nat.two_pow_pos k
  have shifted : (count + 1) / 2 + 2 ^ k - 1 = (count + 2 ^ (k + 1) - 1) / 2 := by
    rw [pow_succ]
    omega
  rw [levelWidth, levelWidth, shifted, Nat.div_div_eq_div_mul, pow_succ']

theorem siblingLevels_wide {width : Nat} (index : Nat) (wide : 1 < width) :
    siblingLevels index width =
      siblingLevels (index / 2) ((width + 1) / 2) + if partner index < width then 1 else 0 := by
  have above (k : Nat) : index / 2 ^ (k + 1) = index / 2 / 2 ^ k := by
    rw [pow_succ', Nat.div_div_eq_div_mul]
  rw [siblingLevels, clog_wide wide, List.range_succ_eq_map, List.countP_cons, List.countP_map]
  simp only [Function.comp_def, Nat.succ_eq_add_one, above, levelWidth_succ, levelWidth_zero,
    pow_zero, Nat.div_one, decide_eq_true_eq]
  rfl

theorem siblingCount_route {index width : Nat} (inside : index < width) :
    siblingCount (route index width) = siblingLevels index width := by
  induction width using Nat.strong_induction_on generalizing index with
  | _ width ih =>
    by_cases wide : 1 < width
    · have above : siblingCount (route (index / 2) ((width + 1) / 2)) =
          siblingLevels (index / 2) ((width + 1) / 2) := ih _ (by omega) (by omega)
      obtain ⟨turn, route, isTurn⟩ := route_wide index wide
      have paired : turn ≠ .promoted ↔ partner index < width := by
        rw [isTurn, partner]
        by_cases odd : index % 2 = 1
        · simp only [if_pos odd]
          exact ⟨fun _ => by omega, fun _ => nofun⟩
        · simp only [if_neg odd]
          split <;> simp_all
      rw [route, siblingCount, List.countP_cons, siblingLevels_wide index wide, ← above]
      simp only [decide_eq_true_eq, paired, siblingCount]
    · rw [route_narrow (by omega), siblingLevels, Nat.clog_of_right_le_one (by omega)]
      rfl

theorem levelsFrom_widths (level : List Digest) :
    (levelsFrom level).map List.length =
      (List.range (Nat.clog 2 level.length + 1)).map (levelWidth level.length) := by
  fun_induction levelsFrom level with
  | case1 level short =>
    rw [Nat.clog_of_right_le_one short]
    simp [levelWidth_zero]
  | case2 level short ih =>
    have wide : 1 < level.length := Nat.lt_of_not_le short
    rw [List.map_cons, ih, pairUp_length, ← clog_wide wide, List.range_succ_eq_map, List.map_cons,
      List.map_map, levelWidth_zero]
    simp [levelWidth_succ]

end HashTree

/-- The walk in machine words: its result with a record of what it has hashed,
unless a sum does not fit a word or there are more than sixty-four levels. -/
def Witness.walk? (w : Witness) (leaf : Digest) : Option (Option Digest × List Bytes) :=
  if w.leafIndex < w.leafCount then
    (HashTree.ladder? 64 ⟨w.leafIndex, w.leafCount⟩).map fun ladder =>
      HashTree.climbRecorded (ladder.map Prod.snd) leaf w.path
  else some (none, [])

namespace HashTree

theorem ladder?_of_witness {w : Witness} (inside : w.leafIndex < w.leafCount) :
    ∃ ladder, ladder? 64 ⟨w.leafIndex, w.leafCount⟩ = some ladder ∧
      ladder.map Prod.snd = route w.leafIndex.toNat w.leafCount.toNat ∧ ladder.length ≤ 64 ∧
      ∀ step ∈ ladder, step.1.index < step.1.width :=
  ladder?_eq inside w.leafCount.toNat_lt.le

theorem walk?_eq (w : Witness) (leaf : Digest) :
    ∃ hashed, w.walk? leaf = some (w.root? leaf, hashed) ∧ hashed.length ≤ 64 := by
  by_cases inside : w.leafIndex < w.leafCount
  · obtain ⟨ladder, eq, turns, short, -⟩ := ladder?_of_witness inside
    refine ⟨climbPreimages (route w.leafIndex.toNat w.leafCount.toNat) leaf w.path, ?_, ?_⟩
    · rw [Witness.walk?, if_pos inside, eq, Witness.root?, if_pos inside, Option.map_some, turns,
        climbRecorded_eq]
    · calc (climbPreimages (route w.leafIndex.toNat w.leafCount.toNat) leaf w.path).length
          ≤ (route w.leafIndex.toNat w.leafCount.toNat).length := climbPreimages_length ..
        _ = ladder.length := by rw [← turns, List.length_map]
        _ ≤ 64 := short
  · exact ⟨[], by rw [Witness.walk?, if_neg inside, Witness.root?, if_neg inside], Nat.zero_le _⟩

theorem root?_isSome_iff (w : Witness) (leaf : Digest) : (w.root? leaf).isSome ↔
    w.leafIndex < w.leafCount ∧
      w.path.length = siblingLevels w.leafIndex.toNat w.leafCount.toNat := by
  rw [Witness.root?]
  split
  · rename_i inside
    rw [climb_isSome_iff, siblingCount_route (UInt64.lt_iff_toNat_lt.mp inside)]
    exact (and_iff_right inside).symm
  · simp_all

theorem path_length_of_witness? {t : HashTree} {index : Nat} {own : Witness}
    (isOwn : t.witness? index = some own) : own.path.length = siblingLevels index t.leafCount := by
  obtain ⟨inside, rfl⟩ := witness?_eq_some.mp isOwn
  rw [← siblingCount_route inside]
  exact climb_length (leaf_ascent t (List.getElem?_eq_getElem inside)).climbs

/-- Whatever the witness, the walk in machine words comes to its end: no sum
leaves the words, there are at most sixty-four levels and no more nodes are
hashed, on each level the index is below the width, and the result is the root.
There is one exactly if the index is below the leaf count and the path has a
digest for each level with a sibling, as the tree's own witness has for a tree
of that many leaves, whatever the leaves are. -/
theorem walk_bounded (w : Witness) (leaf : Digest) :
    (∃ hashed, w.walk? leaf = some (w.root? leaf, hashed) ∧ hashed.length ≤ 64) ∧
    (w.leafIndex < w.leafCount → ∃ ladder,
      ladder? 64 ⟨w.leafIndex, w.leafCount⟩ = some ladder ∧ ladder.length ≤ 64 ∧
      ∀ step ∈ ladder, step.1.index < step.1.width) ∧
    ((w.root? leaf).isSome ↔ w.leafIndex < w.leafCount ∧
      w.path.length = siblingLevels w.leafIndex.toNat w.leafCount.toNat) ∧
    ∀ t : HashTree, t.leafCount = w.leafCount.toNat →
      t.levels.map List.length =
        (List.range (Nat.clog 2 w.leafCount.toNat + 1)).map (levelWidth w.leafCount.toNat) ∧
      ∀ own, t.witness? w.leafIndex.toNat = some own →
        own.path.length = siblingLevels w.leafIndex.toNat w.leafCount.toNat := by
  refine ⟨walk?_eq w leaf, ?_, root?_isSome_iff w leaf, ?_⟩
  · intro inside
    obtain ⟨ladder, eq, -, short, inner⟩ := ladder?_of_witness inside
    exact ⟨ladder, eq, short, inner⟩
  · intro t count
    rw [← count]
    exact ⟨t.levels_eq ▸ levelsFrom_widths t.leaves, fun own => path_length_of_witness?⟩

/-- The last leaf at the greatest leaf count a witness can claim has no sibling
on the lowest level and one on each of the sixty-three above. In a tree of
three leaves the last one has a single digest on its way. -/
theorem walk_bounded_largest :
    (∃ ladder, ladder? 64 ⟨18446744073709551614, 18446744073709551615⟩ = some ladder ∧
      ladder.length ≤ 64) ∧
    (∀ leaf path,
      ((⟨18446744073709551614, 18446744073709551615, path⟩ : Witness).root? leaf).isSome ↔
        path.length = 63) ∧
    ∃ (t : HashTree) (own : Witness), t.leafCount = 3 ∧ t.witness? 2 = some own ∧
      own.path.length = 1 ∧ ∃ hashed, own.walk? .zero = some (own.root? .zero, hashed) ∧
        hashed.length ≤ 64 := by
  refine ⟨?_, ?_, ?_⟩
  · obtain ⟨-, words, -⟩ :=
      walk_bounded ⟨18446744073709551614, 18446744073709551615, []⟩ .zero
    obtain ⟨ladder, eq, short, -⟩ := words (by decide)
    exact ⟨ladder, eq, short⟩
  · intro leaf path
    obtain ⟨-, -, fits, -⟩ :=
      walk_bounded ⟨18446744073709551614, 18446744073709551615, path⟩ leaf
    have inside : (18446744073709551614 : UInt64) < 18446744073709551615 := by decide
    have levels : siblingLevels 18446744073709551614 18446744073709551615 = 63 := by
      decide +kernel
    rw [fits]
    exact ⟨fun h => h.2.trans levels, fun h => ⟨inside, h.trans levels.symm⟩⟩
  · let t : HashTree := ⟨[.zero, .zero, .zero], by simp, _, rfl⟩
    have within : (t.witness? 2).isSome := witness?_isSome.mpr (by decide)
    obtain ⟨own, isOwn⟩ := Option.isSome_iff_exists.mp within
    obtain ⟨-, -, -, trees⟩ := walk_bounded ⟨2, 3, []⟩ .zero
    exact ⟨t, own, rfl, isOwn, (trees t rfl).2 own isOwn, (walk_bounded own .zero).1⟩

end HashTree

end NamedContent
