import Mathlib
import NamedContent.Proofs.Buffer.Selection
import NamedContent.Proofs.Buffer.Space

/-!
# All that can happen to a buffer

One uninterrupted piece of work changes a buffer in one of the ways listed
here. What is to hold of a buffer at all times is shown to survive each of
them.
-/

set_option autoImplicit false

namespace NamedContent.Buffer

/-- A change of the buffer and the notices that go with it. -/
inductive Change (b : Buffer) : Buffer → List Notice → Prop where
  | stay : Change b b []
  /-- A put has found the buffer full, and finds it full again after a sweep. -/
  | sweep {name : Name} (full : b.isFullFor name = true) (mode : b.bestEffort = true) :
      Change b b.sweep []
  | file {block : Block} {b' : Buffer} {ns : List Notice} (phase : b.phase = .accepting)
      (admitted : b.admits block.name = true)
      (room : (b.makeRoom block.name).isFullFor block.name = false)
      (filed : (b.makeRoom block.name).file block = (b', ns)) : Change b b' ns
  | serve {interest : Interest} {e : Entry} (phase : b.phase ≠ .closed)
      (listed : (e.block.name, e) ∈ b.entries.toList)
      (available : b.isAvailable interest e = true) :
      Change b { b with entries := b.entries.insert e.block.name e.afterRead } b.deliveryNotices
  | park {interest : Interest} (phase : b.phase ≠ .closed) (nothing : b.take? interest = none) :
      Change b (b.enroll interest .once) []
  | miss {interest : Interest} (phase : b.phase ≠ .closed) (nothing : b.take? interest = none) :
      Change b ((b.enroll interest .once).forget b.nextId) []
  | forget (id : Nat) : Change b (b.forget id) []
  | drain (phase : b.phase ≠ .closed) : Change b b.beginDrain [.space]
  | shut : Change b b.shut b.shutNotices
  | close (phase : b.phase ≠ .closed) : Change b b.beginDrain.shut (.space :: b.shutNotices)
  | resize (n : Nat) : Change b { b with capacity := n } [.space]
  | scope (namespaces : Table Name Nat) : Change b { b with namespaces } []
  | clear : Change b b.clear removalNotices
  | remove (name : Name) : Change b { b with entries := b.entries.erase name } removalNotices
  | subscribe {interest : Interest} {limit : Option Nat} {b' : Buffer}
      (opened : b.subscribe? interest limit = some b') : Change b b' []
  | read (feeds : List Feed) : Change b { b with feeds } []
  | dropFeed (id : Nat) : Change b (b.dropFeed id) []

theorem shut_consistent (b : Buffer) : b.shut.Consistent where
  sorted := Matcher.empty_sorted
  below := by simp [shut]
  distinct := by simp [shut]
  held := by simp [shut, Matcher.not_holds_empty]
  keyed := by simp [shut, Table.empty]

theorem change_of_filed {b b' : Buffer} {block : Block} {ns : List Notice}
    (tried : b.tryInsert block = .filed b' ns) : b.Change b' ns := by
  obtain ⟨phase, admitted, room, filed⟩ := tryInsert_filed tried
  exact .file phase admitted room filed

theorem change_of_full {b b' : Buffer} {block : Block} (tried : b.tryInsert block = .full b') :
    b.Change b' [] := by
  obtain ⟨rfl, -⟩ := tryInsert_full tried
  obtain same | ⟨full, mode, swept⟩ := b.makeRoom_cases block.name
  · rw [same]
    exact .stay
  · rw [swept]
    exact .sweep full mode

variable {b b' : Buffer} {ns : List Notice}

theorem Change.consistent (change : b.Change b' ns) (h : b.Consistent) : b'.Consistent := by
  cases change with
  | stay => exact h
  | sweep => exact sweep_consistent h
  | file _ _ _ filed => exact (file_filed (makeRoom_consistent h _) filed).consistent
  | serve _ _ _ => exact h.with_entries (insert_keyed (e := Entry.afterRead _) h.keyed)
  | park => exact enroll_consistent h _ _
  | miss => exact forget_consistent (enroll_consistent h _ _) _
  | forget id => exact forget_consistent h id
  | drain => exact h.of_same_waiters rfl rfl rfl h.keyed
  | shut => exact shut_consistent b
  | close => exact shut_consistent b.beginDrain
  | resize => exact h.of_same_waiters rfl rfl rfl h.keyed
  | scope => exact h.of_same_waiters rfl rfl rfl h.keyed
  | clear => exact h.with_entries (by simp [Table.empty])
  | remove name =>
    apply h.with_entries
    intro k e listed
    exact h.keyed k e (List.mem_of_mem_filter listed)
  | subscribe opened =>
    obtain ⟨-, rfl⟩ := subscribe?_eq_some opened
    have enrolled := enroll_consistent h
    exact (enrolled _ _).of_same_waiters rfl rfl rfl h.keyed
  | read => exact h.of_same_waiters rfl rfl rfl h.keyed
  | dropFeed id =>
    have forgotten := forget_consistent h id
    exact forgotten.of_same_waiters rfl rfl rfl forgotten.keyed

theorem Change.config (change : b.Change b' ns) (h : b.Consistent) : b'.config = b.config := by
  cases change with
  | file _ _ _ filed =>
    rw [(file_filed (makeRoom_consistent h _) filed).config, makeRoom_config]
  | miss => exact forget_config _ _
  | forget id => exact forget_config _ _
  | subscribe opened =>
    obtain ⟨-, rfl⟩ := subscribe?_eq_some opened
    rfl
  | dropFeed id => exact forget_config b id
  | _ => rfl

theorem Change.bestEffort (change : b.Change b' ns) (h : b.Consistent) :
    b'.bestEffort = b.bestEffort := by
  rw [Buffer.bestEffort, Buffer.bestEffort, change.config h]

theorem Change.nextId_le (change : b.Change b' ns) (h : b.Consistent) : b.nextId ≤ b'.nextId := by
  cases change with
  | file _ _ _ filed =>
    rw [(file_filed (makeRoom_consistent h _) filed).nextId, makeRoom_nextId]
  | park => exact Nat.le_succ _
  | miss =>
    rw [forget_nextId]
    exact Nat.le_succ _
  | forget id => rw [forget_nextId]
  | subscribe opened =>
    obtain ⟨-, rfl⟩ := subscribe?_eq_some opened
    exact Nat.le_succ _
  | dropFeed id => exact (forget_nextId b id).ge
  | _ => exact Nat.le_refl _

end NamedContent.Buffer
