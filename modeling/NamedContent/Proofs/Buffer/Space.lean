import Mathlib
import NamedContent.Proofs.Buffer.Filing

/-!
# Room for one more block

A put is filed if there is a place for its name after a sweep. If there is
none, the buffer is really full for it: nothing could be swept any more.
-/

set_option autoImplicit false

namespace NamedContent.Buffer

def Insertion.isFiled : Insertion → Bool
  | .filed _ _ => true
  | _ => false

theorem Insertion.isFiled_iff {i : Insertion} : i.isFiled = true ↔ ∃ b ns, i = .filed b ns := by
  cases i <;> simp [isFiled]

theorem makeRoom_cases (b : Buffer) (name : Name) : b.makeRoom name = b ∨
    b.isFullFor name = true ∧ b.bestEffort = true ∧ b.makeRoom name = b.sweep := by
  by_cases full : (b.isFullFor name && b.bestEffort) = true
  · rw [makeRoom, if_pos full]
    rw [Bool.and_eq_true] at full
    exact .inr ⟨full.1, full.2, rfl⟩
  · rw [makeRoom, if_neg full]
    exact .inl rfl

theorem mem_sweep {b : Buffer} {x : Name × Entry} :
    x ∈ b.sweep.entries.toList ↔ x ∈ b.entries.toList ∧ x.2.deliveries = 0 := by
  simp [sweep, Table.filter]

theorem mem_of_makeRoom {b : Buffer} {name : Name} {x : Name × Entry}
    (listed : x ∈ (b.makeRoom name).entries.toList) : x ∈ b.entries.toList := by
  obtain same | ⟨-, -, swept⟩ := b.makeRoom_cases name
  · rwa [same] at listed
  · rw [swept] at listed
    exact (mem_sweep.mp listed).1

theorem makeRoom_eq (b : Buffer) (name : Name) :
    ∃ entries, b.makeRoom name = { b with entries } := by
  obtain same | ⟨-, -, swept⟩ := b.makeRoom_cases name
  · exact ⟨b.entries, same⟩
  · exact ⟨_, swept⟩

section MakeRoom

variable (b : Buffer) (name : Name)

@[simp] theorem makeRoom_config : (b.makeRoom name).config = b.config := by
  obtain ⟨_, h⟩ := b.makeRoom_eq name
  rw [h]

@[simp] theorem makeRoom_pending : (b.makeRoom name).pending = b.pending := by
  obtain ⟨_, h⟩ := b.makeRoom_eq name
  rw [h]

@[simp] theorem makeRoom_capacity : (b.makeRoom name).capacity = b.capacity := by
  obtain ⟨_, h⟩ := b.makeRoom_eq name
  rw [h]

@[simp] theorem makeRoom_nextOrder : (b.makeRoom name).nextOrder = b.nextOrder := by
  obtain ⟨_, h⟩ := b.makeRoom_eq name
  rw [h]

@[simp] theorem makeRoom_nextId : (b.makeRoom name).nextId = b.nextId := by
  obtain ⟨_, h⟩ := b.makeRoom_eq name
  rw [h]

@[simp] theorem makeRoom_bestEffort : (b.makeRoom name).bestEffort = b.bestEffort := by
  rw [Buffer.bestEffort, makeRoom_config, Buffer.bestEffort]

end MakeRoom

theorem sweep_consistent {b : Buffer} (h : b.Consistent) : b.sweep.Consistent :=
  h.with_entries fun name e listed => h.keyed name e (mem_sweep.mp listed).1

theorem makeRoom_consistent {b : Buffer} (h : b.Consistent) (name : Name) :
    (b.makeRoom name).Consistent := by
  obtain same | ⟨-, -, swept⟩ := b.makeRoom_cases name
  · rwa [same]
  · rw [swept]
    exact sweep_consistent h

theorem tryInsert_filed {b b' : Buffer} {block : Block} {ns : List Notice}
    (tried : b.tryInsert block = .filed b' ns) :
    b.phase = .accepting ∧ b.admits block.name = true ∧
      (b.makeRoom block.name).isFullFor block.name = false ∧
      (b.makeRoom block.name).file block = (b', ns) := by
  rw [tryInsert] at tried
  split at tried
  · contradiction
  · rename_i phase
    split at tried
    · contradiction
    · rename_i admitted
      dsimp only at tried
      split at tried
      · contradiction
      · rename_i room
        obtain ⟨rfl, rfl⟩ := Insertion.filed.inj tried
        exact ⟨by simpa using phase, by simpa using admitted, by simpa using room, rfl⟩

theorem tryInsert_full {b b' : Buffer} {block : Block} (tried : b.tryInsert block = .full b') :
    b' = b.makeRoom block.name ∧ b'.isFullFor block.name = true := by
  rw [tryInsert] at tried
  split at tried
  · contradiction
  · split at tried
    · contradiction
    · dsimp only at tried
      split at tried
      · rename_i full
        obtain rfl := Insertion.full.inj tried
        exact ⟨rfl, full⟩
      · contradiction

/-- A put is refused if the buffer takes no puts or no namespace admits the name. -/
theorem tryInsert_refused_iff {b : Buffer} {block : Block} {error : PublishError} :
    b.tryInsert block = .refused error ↔ b.phase ≠ .accepting ∧ error = .closedBuffer ∨
      b.phase = .accepting ∧ b.admits block.name = false ∧
        error = .invalidArgument (.outsideNamespaces block.name) := by
  rw [tryInsert]
  by_cases phase : b.phase = .accepting
  · rw [if_neg (not_not_intro phase)]
    cases admitted : b.admits block.name with
    | false =>
      constructor
      · rintro ⟨⟩
        exact .inr ⟨phase, rfl, rfl⟩
      · rintro (⟨closed, -⟩ | ⟨-, -, rfl⟩)
        · exact absurd phase closed
        · rfl
    | true =>
      simp only [Bool.not_true, Bool.false_eq_true, if_false, phase]
      split <;> simp
  · rw [if_pos phase]
    constructor
    · rintro ⟨⟩
      exact .inl ⟨phase, rfl⟩
    · rintro (⟨-, rfl⟩ | ⟨accepting, -⟩)
      · rfl
      · exact absurd accepting phase

theorem tryInsert_refused {b : Buffer} {block : Block} {error : PublishError}
    (tried : b.tryInsert block = .refused error) (capacity size : Nat) :
    error ≠ .capacityExceeded capacity size := by
  obtain ⟨-, rfl⟩ | ⟨-, -, rfl⟩ := tryInsert_refused_iff.mp tried <;> nofun

/-- There is no place for the name: it is not buffered, the buffer holds as
much as it may, and a sweep would drop nothing. -/
structure ReallyFull (b : Buffer) (name : Name) : Prop where
  absent : b.entries.contains name = false
  filled : b.capacity ≤ b.size
  unswept : b.bestEffort = true → ∀ x ∈ b.entries.toList, x.2.deliveries = 0

theorem sweep_entries {b : Buffer} (unswept : ∀ x ∈ b.entries.toList, x.2.deliveries = 0) :
    b.sweep.entries = b.entries := by
  have all : b.entries.toList.filter (fun x => decide (x.2.deliveries = 0)) = b.entries.toList := by
    rw [List.filter_eq_self]
    intro x hx
    simpa using unswept x hx
  show Table.mk _ _ = _
  simp only [all]

theorem ReallyFull.makeRoom_entries {b : Buffer} {name : Name} (h : b.ReallyFull name)
    (other : Name) : (b.makeRoom other).entries = b.entries := by
  obtain same | ⟨-, mode, swept⟩ := b.makeRoom_cases other
  · rw [same]
  · rw [swept]
    exact sweep_entries (h.unswept mode)

theorem ReallyFull.of_same {b b' : Buffer} {name : Name} (h : b.ReallyFull name)
    (config : b'.config = b.config) (capacity : b'.capacity = b.capacity)
    (entries : b'.entries = b.entries) : b'.ReallyFull name where
  absent := entries ▸ h.absent
  filled := by
    rw [capacity, size, entries]
    exact h.filled
  unswept := by
    rw [Buffer.bestEffort, config, entries]
    exact h.unswept

theorem ReallyFull.replaced {b b' : Buffer} {name k : Name} {e : Entry} (h : b.ReallyFull name)
    (present : b.entries.contains k = true) (config : b'.config = b.config)
    (capacity : b'.capacity = b.capacity) (entries : b'.entries = b.entries.insert k e)
    (unread : b.bestEffort = true → e.deliveries = 0) : b'.ReallyFull name where
  absent := by
    have apart : name ≠ k := by
      intro same
      rw [← same, h.absent] at present
      contradiction
    rw [entries, Table.contains_insert, h.absent]
    simpa using apart
  filled := by
    have same : b'.size = b.size := by
      rw [size, entries, Table.size_insert, if_pos present]
      rfl
    rw [capacity, same]
    exact h.filled
  unswept := by
    rw [Buffer.bestEffort, config, entries]
    intro mode x hx
    rcases Table.mem_insert.mp hx with new | ⟨old, -⟩
    · rw [new]
      exact unread mode
    · exact h.unswept mode x old

theorem isFullFor_iff {b : Buffer} {name : Name} :
    b.isFullFor name = true ↔ b.entries.contains name = false ∧ b.capacity ≤ b.size := by
  simp [isFullFor]

theorem reallyFull_of_full {b b' : Buffer} {block : Block} (tried : b.tryInsert block = .full b') :
    b'.ReallyFull block.name := by
  obtain ⟨rfl, full⟩ := tryInsert_full tried
  obtain ⟨absent, filled⟩ := isFullFor_iff.mp full
  refine ⟨absent, filled, ?_⟩
  rw [makeRoom_bestEffort]
  intro mode x hx
  obtain same | ⟨-, -, swept⟩ := b.makeRoom_cases block.name
  · have swept : b.makeRoom block.name = b.sweep := by
      rw [makeRoom, if_pos]
      rw [same] at full
      rw [full, mode]
      rfl
    rw [swept] at hx
    exact (mem_sweep.mp hx).2
  · rw [swept] at hx
    exact (mem_sweep.mp hx).2

theorem ReallyFull.present_of_filed {b b' : Buffer} {name : Name} {block : Block}
    {ns : List Notice} (h : b.ReallyFull name) (tried : b.tryInsert block = .filed b' ns) :
    b.entries.contains block.name = true := by
  obtain ⟨-, -, room, -⟩ := tryInsert_filed tried
  by_contra absent
  have full : (b.makeRoom block.name).isFullFor block.name = true := by
    rw [isFullFor_iff, makeRoom_capacity, size, h.makeRoom_entries]
    exact ⟨by simpa using absent, h.filled⟩
  rw [full] at room
  contradiction

theorem ReallyFull.not_filed {b b' : Buffer} {block : Block} {ns : List Notice}
    (h : b.ReallyFull block.name) : b.tryInsert block ≠ .filed b' ns := by
  intro tried
  have present := h.present_of_filed tried
  rw [h.absent] at present
  contradiction

end NamedContent.Buffer
