import Mathlib
import NamedContent.Proofs.Buffer.Offering

/-!
# Filing a block

A block that goes into the buffer replaces the entry under its name and no
other. Its notices hand it to requests that accept it and never speak of room.
A request that accepts the block and still waits was too late: in best-effort
mode the block has a reader already.
-/

set_option autoImplicit false

namespace NamedContent.Buffer

theorem eq_of_short {α : Type} {l : List α} (short : l.length ≤ 1) {x y : α} (hx : x ∈ l)
    (hy : y ∈ l) : x = y := by
  cases l with
  | nil => contradiction
  | cons z rest =>
    obtain rfl : rest = [] := by simpa using short
    rw [List.mem_singleton.mp hx, List.mem_singleton.mp hy]

theorem numbered_consistent {b : Buffer} (h : b.Consistent) (n : Nat) :
    { b with nextOrder := n }.Consistent :=
  h.of_same_waiters rfl rfl rfl h.keyed

section File

variable (b : Buffer) (block : Block)

def filingOffer : Offer := { b with nextOrder := b.nextOrder + 1 }.offer block

/-- How many waiters take the block when it is filed. -/
def recipients : Nat := (b.filingOffer block).taken

def newEntry : Entry := ⟨block, b.nextOrder, b.recipients block⟩

def filingNotices : List Notice :=
  (b.filingOffer block).notices ++ if b.recipients block = 0 then [] else [.claimed]

variable {b} {block}

theorem filingOffer_offering (h : b.Consistent) :
    { b with nextOrder := b.nextOrder + 1 }.Offering block (b.filingOffer block) :=
  offer_offering (numbered_consistent h _) block

theorem file_eq (h : b.Consistent) : b.file block =
    ({ (b.filingOffer block).buffer with
        entries := b.entries.insert block.name (b.newEntry block) }, b.filingNotices block) := by
  have same : (b.filingOffer block).buffer.entries = b.entries :=
    (filingOffer_offering h).store.entries
  show ({ (b.filingOffer block).buffer with entries :=
      (b.filingOffer block).buffer.entries.insert block.name (b.newEntry block) }, _) = _
  rw [same]
  rfl

theorem mem_filingNotices {n : Notice} (told : n ∈ b.filingNotices block) :
    n = .claimed ∨ n ∈ (b.filingOffer block).notices := by
  rcases List.mem_append.mp told with hand | rest
  · exact .inr hand
  · by_cases nobody : b.recipients block = 0
    · simp [nobody] at rest
    · exact .inl (by simpa [nobody] using rest)

theorem handed_mem_filingNotices {id : Nat} {x : Block} :
    .handed id x ∈ b.filingNotices block ↔ .handed id x ∈ (b.filingOffer block).notices := by
  constructor
  · intro told
    rcases mem_filingNotices told with eq | hand
    · contradiction
    · exact hand
  · exact fun hand => List.mem_append_left _ hand

theorem filingNotices_cases (h : b.Consistent) {n : Notice} (told : n ∈ b.filingNotices block) :
    n = .claimed ∨ ∃ id, n = .handed id block := by
  rcases mem_filingNotices told with eq | hand
  · exact .inl eq
  · obtain ⟨w, -, eq, -⟩ := (filingOffer_offering h).handed _ hand
    exact .inr ⟨w.id, eq⟩

theorem recipients_ne_zero (h : b.Consistent) (some : (b.filingOffer block).notices ≠ []) :
    b.recipients block ≠ 0 := by
  intro nobody
  have counted : (b.filingOffer block).notices.length ≤ b.recipients block :=
    (filingOffer_offering h).counted
  have empty : (b.filingOffer block).notices.length = 0 := by omega
  exact some (List.length_eq_zero_iff.mp empty)

/-- What filing leaves as it is, and the entry that it adds. -/
structure Filed (b : Buffer) (block : Block) (b' : Buffer) (ns : List Notice) : Prop where
  consistent : b'.Consistent
  config : b'.config = b.config
  phase : b'.phase = b.phase
  capacity : b'.capacity = b.capacity
  namespaces : b'.namespaces = b.namespaces
  nextId : b'.nextId = b.nextId
  nextOrder : b'.nextOrder = b.nextOrder + 1
  entries : b'.entries = b.entries.insert block.name (b.newEntry block)
  once : ∀ w : Waiter, w.demand = .once →
    (w ∈ b'.pending ↔ w ∈ b.pending ∧ .handed w.id block ∉ ns)
  handed : ∀ id x, .handed id x ∈ ns → x = block ∧
    ∃ w ∈ b.pending, w.id = id ∧ w.demand = .once ∧ w.interest.accepts block.name = true
  late : ∀ w ∈ b'.pending, w.demand = .once → w.interest.accepts block.name = true →
    b.bestEffort = true ∧ b.recipients block ≠ 0
  counted : ∀ id x, .handed id x ∈ ns → b.recipients block ≠ 0
  single : b.bestEffort = true → ∀ id x id' x', .handed id x ∈ ns → .handed id' x' ∈ ns → id = id'
  quiet : .space ∉ ns
  unreleased : ∀ id, .released id ∉ ns

theorem file_filed {b' : Buffer} {ns : List Notice} (h : b.Consistent)
    (filed : b.file block = (b', ns)) : b.Filed block b' ns := by
  have offering : { b with nextOrder := b.nextOrder + 1 }.Offering block (b.filingOffer block) :=
    filingOffer_offering h
  rw [file_eq h] at filed
  obtain ⟨rfl, rfl⟩ := Prod.mk.inj filed
  constructor
  case consistent =>
    exact offering.consistent.with_entries (insert_keyed (e := b.newEntry block) h.keyed)
  case config => exact offering.store.config
  case phase => exact offering.store.phase
  case capacity => exact offering.store.capacity
  case namespaces => exact offering.store.namespaces
  case nextId => exact offering.store.nextId
  case nextOrder => exact offering.store.nextOrder
  case entries => rfl
  case once =>
    intro w once
    rw [handed_mem_filingNotices]
    exact offering.once w once
  case handed =>
    intro id x told
    obtain ⟨w, hw, eq, demand, accepts⟩ := offering.handed _ (handed_mem_filingNotices.mp told)
    obtain ⟨rfl, rfl⟩ := Notice.handed.inj eq
    exact ⟨rfl, w, hw, rfl, demand, accepts⟩
  case late =>
    intro w hw once accepts
    obtain ⟨mode, some⟩ := offer_settled (numbered_consistent h _) block hw once accepts
    exact ⟨mode, recipients_ne_zero h some⟩
  case counted =>
    intro id x told
    exact recipients_ne_zero h (List.ne_nil_of_mem (handed_mem_filingNotices.mp told))
  case single =>
    intro mode id x id' x' told told'
    rw [handed_mem_filingNotices] at told told'
    exact (Notice.handed.inj (eq_of_short (offering.single mode) told told')).1
  case quiet =>
    intro told
    obtain eq | ⟨_, eq⟩ := filingNotices_cases h told
    · contradiction
    · contradiction
  case unreleased =>
    intro id told
    obtain eq | ⟨_, eq⟩ := filingNotices_cases h told
    · contradiction
    · contradiction

end File

end NamedContent.Buffer
