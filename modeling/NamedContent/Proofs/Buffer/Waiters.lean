import Mathlib
import NamedContent.Buffer.Insertion
import NamedContent.Buffer.Retrieval
import NamedContent.Proofs.Matcher
import NamedContent.Proofs.Table

/-!
# The table of waiters and the matcher

Whoever waits is registered in the matcher under the name of its interest, and
nobody else is. Ids are never used twice. Blocks are filed under their own
names.
-/

set_option autoImplicit false

namespace NamedContent.Buffer

structure Consistent (b : Buffer) : Prop where
  sorted : b.matcher.Sorted
  below : ∀ w ∈ b.pending, w.id < b.nextId
  distinct : (b.pending.map (·.id)).Nodup
  held : ∀ pattern id, b.matcher.holds pattern id = true ↔
    ∃ w ∈ b.pending, w.id = id ∧ w.interest.name = pattern
  keyed : ∀ name e, (name, e) ∈ b.entries.toList → e.block.name = name

theorem ofConfig_consistent (config : Config) : (ofConfig config).Consistent where
  sorted := Matcher.empty_sorted
  below := by simp [ofConfig]
  distinct := by simp [ofConfig]
  held := by simp [ofConfig, Matcher.not_holds_empty]
  keyed := by simp [ofConfig, Table.empty]

theorem same_of_id {b : Buffer} (h : b.Consistent) {v w : Waiter} (hv : v ∈ b.pending)
    (hw : w ∈ b.pending) (same : v.id = w.id) : v = w :=
  List.inj_on_of_nodup_map h.distinct hv hw same

theorem waiter?_eq_some {b : Buffer} (h : b.Consistent) {id : Nat} {w : Waiter} :
    b.waiter? id = some w ↔ w ∈ b.pending ∧ w.id = id := by
  rw [waiter?]
  constructor
  · intro found
    exact ⟨List.mem_of_find?_eq_some found, by simpa using List.find?_some found⟩
  · rintro ⟨hw, rfl⟩
    cases found : b.pending.find? fun v => v.id = w.id with
    | none => simpa using List.find?_eq_none.mp found w hw
    | some v =>
      have same : v.id = w.id := by simpa using List.find?_some found
      rw [same_of_id h (List.mem_of_find?_eq_some found) hw same]

section Forget

theorem forget_eq (b : Buffer) (id : Nat) : ∃ matcher, b.forget id =
    { b with pending := b.pending.filter fun w => w.id ≠ id, matcher } := by
  unfold forget
  split
  · rename_i absent
    have absent : ∀ w ∈ b.pending, w.id ≠ id := by
      simpa [waiter?] using absent
    have all : (b.pending.filter fun w => w.id ≠ id) = b.pending := by
      simpa [List.filter_eq_self] using absent
    exact ⟨b.matcher, by rw [all]⟩
  · exact ⟨_, rfl⟩

variable (b : Buffer) (id : Nat)

theorem forget_pending : (b.forget id).pending = b.pending.filter fun w => w.id ≠ id := by
  obtain ⟨_, h⟩ := b.forget_eq id
  rw [h]

@[simp] theorem forget_entries : (b.forget id).entries = b.entries := by
  obtain ⟨_, h⟩ := b.forget_eq id
  rw [h]

@[simp] theorem forget_config : (b.forget id).config = b.config := by
  obtain ⟨_, h⟩ := b.forget_eq id
  rw [h]

@[simp] theorem forget_nextId : (b.forget id).nextId = b.nextId := by
  obtain ⟨_, h⟩ := b.forget_eq id
  rw [h]

theorem mem_forget_pending {b : Buffer} {id : Nat} {w : Waiter} :
    w ∈ (b.forget id).pending ↔ w ∈ b.pending ∧ w.id ≠ id := by
  simp [forget_pending]

end Forget

theorem forget_consistent {b : Buffer} (h : b.Consistent) (id : Nat) :
    (b.forget id).Consistent := by
  cases found : b.waiter? id with
  | none =>
    have same : b.forget id = b := by simp [forget, found]
    rwa [same]
  | some w =>
    obtain ⟨hw, rfl⟩ := (waiter?_eq_some h).mp found
    have matcher : (b.forget w.id).matcher = (b.matcher.unregister w.interest.name w.id).1 := by
      simp [forget, found]
    refine ⟨?_, ?_, ?_, ?_, ?_⟩
    · rw [matcher]
      exact Matcher.unregister_sorted _ _ h.sorted
    · intro v hv
      rw [forget_nextId]
      exact h.below v (mem_forget_pending.mp hv).1
    · rw [forget_pending]
      exact h.distinct.sublist (List.filter_sublist.map _)
    · intro pattern id'
      rw [matcher, Matcher.holds_unregister h.sorted, h.held]
      constructor
      · rintro ⟨⟨v, hv, rfl, rfl⟩, other⟩
        refine ⟨v, mem_forget_pending.mpr ⟨hv, fun same => other ?_⟩, rfl, rfl⟩
        rw [same_of_id h hv hw same]
        exact ⟨rfl, rfl⟩
      · rintro ⟨v, hv, rfl, rfl⟩
        obtain ⟨hv, apart⟩ := mem_forget_pending.mp hv
        exact ⟨⟨v, hv, rfl, rfl⟩, fun same => apart same.2⟩
    · rw [forget_entries]
      exact h.keyed

theorem enroll_consistent {b : Buffer} (h : b.Consistent) (interest : Interest)
    (demand : Demand) : (b.enroll interest demand).Consistent where
  sorted := Matcher.register_sorted _ _ h.sorted
  below := by
    intro w hw
    rcases List.mem_append.mp hw with hw | hw
    · exact (h.below w hw).trans (Nat.lt_succ_self _)
    · obtain rfl := List.mem_singleton.mp hw
      exact Nat.lt_succ_self _
  distinct := by
    rw [enroll, List.map_append, List.nodup_append]
    refine ⟨h.distinct, by simp, ?_⟩
    rintro id hid _ hnew rfl
    obtain ⟨w, hw, rfl⟩ := List.mem_map.mp hid
    have fresh : w.id = b.nextId := by simpa using hnew
    exact absurd (h.below w hw) (by omega)
  held := by
    intro pattern id
    rw [enroll, Matcher.holds_register h.sorted, h.held]
    simp only [List.mem_append, List.mem_singleton]
    constructor
    · rintro (⟨w, hw, rfl, rfl⟩ | ⟨rfl, rfl⟩)
      · exact ⟨w, .inl hw, rfl, rfl⟩
      · exact ⟨_, .inr rfl, rfl, rfl⟩
    · rintro ⟨w, hw | rfl, rfl, rfl⟩
      · exact .inl ⟨w, hw, rfl, rfl⟩
      · exact .inr ⟨rfl, rfl⟩
  keyed := h.keyed

theorem subscribe?_eq_some {b b' : Buffer} {interest : Interest} {limit : Option Nat}
    (opened : b.subscribe? interest limit = some b') : b.phase ≠ .closed ∧
      b' = { b.enroll interest (.standing limit 0) with feeds := b.feeds ++ [⟨b.nextId, []⟩] } := by
  rw [subscribe?] at opened
  split at opened
  · contradiction
  · rename_i phase
    exact ⟨phase, (Option.some.inj opened).symm⟩

theorem remove?_eq_some {b b' : Buffer} {name : Name} {block : Block}
    (found : b.remove? name = some (block, b')) :
    b' = { b with entries := b.entries.erase name } := by
  obtain ⟨_, -, eq⟩ := Option.map_eq_some_iff.mp found
  exact (Prod.mk.inj eq).2.symm

theorem removeNamespace_eq (b : Buffer) (name : Name) :
    ∃ namespaces, (b.removeNamespace name).1 = { b with namespaces } := by
  rw [removeNamespace]
  split
  · exact ⟨b.namespaces, rfl⟩
  · exact ⟨_, rfl⟩

theorem readFeed_eq (b : Buffer) (id : Nat) : ∃ feeds, (b.readFeed id).1 = { b with feeds } := by
  rw [readFeed]
  split
  · exact ⟨b.feeds, rfl⟩
  · split
    · exact ⟨b.feeds, rfl⟩
    · exact ⟨_, rfl⟩

theorem Consistent.of_same_waiters {b b' : Buffer} (h : b.Consistent)
    (waiters : b'.pending.map (fun w => (w.id, w.interest)) =
      b.pending.map (fun w => (w.id, w.interest)))
    (matcher : b'.matcher = b.matcher) (nextId : b'.nextId = b.nextId)
    (keyed : ∀ name e, (name, e) ∈ b'.entries.toList → e.block.name = name) :
    b'.Consistent := by
  have known {b₁ b₂ : Buffer} (same : b₁.pending.map (fun w => (w.id, w.interest)) =
      b₂.pending.map (fun w => (w.id, w.interest))) {w : Waiter} (hw : w ∈ b₁.pending) :
      ∃ v ∈ b₂.pending, v.id = w.id ∧ v.interest = w.interest := by
    have hw := List.mem_map_of_mem (f := fun w => (w.id, w.interest)) hw
    rw [same] at hw
    obtain ⟨v, hv, same⟩ := List.mem_map.mp hw
    exact ⟨v, hv, Prod.mk.inj same⟩
  refine ⟨matcher ▸ h.sorted, ?_, ?_, ?_, keyed⟩
  · intro w hw
    obtain ⟨v, hv, same, -⟩ := known waiters hw
    rw [← same, nextId]
    exact h.below v hv
  · have ids := congrArg (List.map Prod.fst) waiters
    rw [List.map_map, List.map_map] at ids
    exact ids ▸ h.distinct
  · intro pattern id
    rw [matcher, h.held]
    constructor
    · rintro ⟨w, hw, rfl, rfl⟩
      obtain ⟨v, hv, hid, hinterest⟩ := known waiters.symm hw
      exact ⟨v, hv, hid, by rw [hinterest]⟩
    · rintro ⟨w, hw, rfl, rfl⟩
      obtain ⟨v, hv, hid, hinterest⟩ := known waiters hw
      exact ⟨v, hv, hid, by rw [hinterest]⟩

theorem Consistent.with_entries {b : Buffer} (h : b.Consistent) {entries : Table Name Entry}
    (keyed : ∀ name e, (name, e) ∈ entries.toList → e.block.name = name) :
    { b with entries }.Consistent :=
  h.of_same_waiters rfl rfl rfl keyed

theorem insert_keyed {entries : Table Name Entry} {e : Entry}
    (keyed : ∀ name e, (name, e) ∈ entries.toList → e.block.name = name) :
    ∀ name e', (name, e') ∈ (entries.insert e.block.name e).toList → e'.block.name = name := by
  intro name e' listed
  rcases Table.mem_insert.mp listed with new | ⟨old, -⟩
  · obtain ⟨rfl, rfl⟩ := Prod.mk.inj new
    rfl
  · exact keyed name e' old

end NamedContent.Buffer
