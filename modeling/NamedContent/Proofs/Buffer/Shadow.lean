import Mathlib
import NamedContent.Proofs.Buffer.Recipients
import NamedContent.Proofs.Buffer.Shelf

/-!
# A buffer with filters beside one without

Filters that are opened on a buffer take ids, so the requests after them have
other ids than they would have without. Apart from that a put or a request does
the same to both buffers, with one exception: in best-effort mode a block that
only filters take is delivered in the one and not in the other.
-/

set_option autoImplicit false

namespace NamedContent

def Waiter.renumber (ρ : Nat → Nat) (w : Waiter) : Waiter := { w with id := ρ w.id }

def Notice.renumber (ρ : Nat → Nat) : Notice → Notice
  | .handed id block => .handed (ρ id) block
  | .released id => .released (ρ id)
  | n => n

theorem Waiter.renumber_injective {ρ : Nat → Nat} (injective : Function.Injective ρ) :
    Function.Injective (Waiter.renumber ρ) := by
  intro v w same
  obtain ⟨ids, interests, demands⟩ := Waiter.mk.inj same
  cases v
  cases w
  cases injective ids
  cases interests
  cases demands
  rfl

namespace Buffer

/-- The second buffer is the first one with filters on it. -/
structure Shadows (ρ : Nat → Nat) (b b' : Buffer) : Prop extends b.Alike b' where
  ascending : StrictMono ρ
  next : ∀ k, ρ (b.nextId + k) = b'.nextId + k
  requests : b'.requests = b.pending.map (Waiter.renumber ρ)
  plain : ∀ w ∈ b.pending, w.demand = .once

variable {ρ : Nat → Nat} {b b' : Buffer} {block : Block}

theorem ofConfig_shadows (config : Config) : Shadows id (ofConfig config) (ofConfig config) where
  toAlike := ⟨rfl, rfl, rfl, rfl, rfl, rfl⟩
  ascending := strictMono_id
  next := fun _ => rfl
  requests := rfl
  plain := by simp [ofConfig]

namespace Shadows

theorem of_alike (h : b.Shadows ρ b') {c c' : Buffer} (alike : c.Alike c')
    (nextId : c.nextId = b.nextId) (nextId' : c'.nextId = b'.nextId)
    (pending : c.pending = b.pending) (pending' : c'.requests = b'.requests) : c.Shadows ρ c' where
  toAlike := alike
  ascending := h.ascending
  next := by
    rw [nextId, nextId']
    exact h.next
  requests := by rw [pending', pending, h.requests]
  plain := by
    rw [pending]
    exact h.plain

theorem of_entries (h : b.Shadows ρ b') {entries entries' : Table Name Entry}
    (same : entries'.mapValues (Entry.mark b.bestEffort) =
      entries.mapValues (Entry.mark b.bestEffort)) :
    Shadows ρ { b with entries } { b' with entries := entries' } :=
  h.of_alike (h.with_entries same) rfl rfl rfl rfl

theorem makeRoom (h : b.Shadows ρ b') (name : Name) :
    (b.makeRoom name).Shadows ρ (b'.makeRoom name) := by
  obtain ⟨entries, eq⟩ := b.makeRoom_eq name
  obtain ⟨entries', eq'⟩ := b'.makeRoom_eq name
  have alike := h.toAlike.makeRoom name
  rw [eq, eq'] at alike ⊢
  exact h.of_alike alike rfl rfl rfl rfl

theorem enroll (h : b.Shadows ρ b') (interest : Interest) :
    (b.enroll interest .once).Shadows ρ (b'.enroll interest .once) where
  toAlike := ⟨h.config, h.phase, h.capacity, h.namespaces, h.nextOrder, h.shelf⟩
  ascending := h.ascending
  next := by
    intro k
    show ρ (b.nextId + 1 + k) = b'.nextId + 1 + k
    rw [Nat.add_assoc, h.next, Nat.add_assoc]
  requests := by
    have first : ρ b.nextId = b'.nextId := h.next 0
    show (b'.pending ++ [_]).filter _ = (b.pending ++ [_]).map _
    rw [List.filter_append, List.map_append, ← h.requests]
    simp [Buffer.requests, Waiter.renumber, first]
  plain := by
    intro w hw
    rcases List.mem_append.mp hw with old | new
    · exact h.plain w old
    · rw [List.mem_singleton.mp new]

theorem forget (h : b.Shadows ρ b') (id : Nat) : (b.forget id).Shadows ρ (b'.forget (ρ id)) := by
  obtain ⟨matcher, eq⟩ := b.forget_eq id
  obtain ⟨matcher', eq'⟩ := b'.forget_eq (ρ id)
  rw [eq, eq']
  refine ⟨⟨h.config, h.phase, h.capacity, h.namespaces, h.nextOrder, h.shelf⟩, h.ascending, h.next,
    ?_, fun w hw => h.plain w (List.mem_of_mem_filter hw)⟩
  have requests : (b'.pending.filter fun w => w.id ≠ ρ id).filter (fun w => w.demand = .once) =
      b'.requests.filter fun w => w.id ≠ ρ id := List.filter_comm ..
  show (b'.pending.filter fun w => w.id ≠ ρ id).filter _ = _
  rw [requests, h.requests, List.filter_map]
  congr 1
  apply List.filter_congr
  intro w _
  simp [Waiter.renumber, h.ascending.injective.eq_iff]

theorem subscribe (h : b.Shadows ρ b') (consistent : b.Consistent) {interest : Interest}
    {limit : Option Nat} {c' : Buffer} (opened : b'.subscribe? interest limit = some c') :
    ∃ ρ', (∀ id < b.nextId, ρ' id = ρ id) ∧ b.Shadows ρ' c' := by
  obtain ⟨-, rfl⟩ := subscribe?_eq_some opened
  -- ids that are given out stay, those to come move up by one
  have before : ∀ id < b.nextId, (if id < b.nextId then ρ id else ρ id + 1) = ρ id :=
    fun id less => if_pos less
  refine ⟨fun id => if id < b.nextId then ρ id else ρ id + 1, before, ?_⟩
  refine ⟨⟨h.config, h.phase, h.capacity, h.namespaces, h.nextOrder, h.shelf⟩, ?_, ?_, ?_, h.plain⟩
  · intro i j less
    have rises := h.ascending less
    dsimp only
    split
    · split
      · exact rises
      · omega
    · split
      · omega
      · omega
  · intro k
    show _ = b'.nextId + 1 + k
    rw [if_neg (Nat.not_lt.mpr (Nat.le_add_right _ _)), h.next]
    omega
  · have kept : b.pending.map (Waiter.renumber fun id => if id < b.nextId then ρ id else ρ id + 1) =
        b.pending.map (Waiter.renumber ρ) := by
      apply List.map_congr_left
      intro w hw
      rw [Waiter.renumber, Waiter.renumber, before w.id (consistent.below w hw)]
    rw [kept, ← h.requests]
    show (b'.pending ++ [_]).filter _ = _
    rw [List.filter_append]
    simp [Buffer.requests]

theorem read (h : b.Shadows ρ b') (feed : Nat) : b.Shadows ρ (b'.readFeed feed).1 := by
  obtain ⟨feeds, eq⟩ := b'.readFeed_eq feed
  rw [eq]
  exact h.of_alike ⟨h.config, h.phase, h.capacity, h.namespaces, h.nextOrder, h.shelf⟩ rfl rfl rfl rfl

theorem resize (h : b.Shadows ρ b') (n : Nat) :
    Shadows ρ { b with capacity := n } { b' with capacity := n } :=
  h.of_alike ⟨h.config, h.phase, rfl, h.namespaces, h.nextOrder, h.shelf⟩ rfl rfl rfl rfl

theorem scope (h : b.Shadows ρ b') (namespaces : Table Name Nat) :
    Shadows ρ { b with namespaces } { b' with namespaces } :=
  h.of_alike ⟨h.config, h.phase, h.capacity, rfl, h.nextOrder, h.shelf⟩ rfl rfl rfl rfl

theorem addNamespace (h : b.Shadows ρ b') (name : Name) :
    (b.addNamespace name).Shadows ρ (b'.addNamespace name) := by
  rw [Buffer.addNamespace, Buffer.addNamespace, h.namespaces]
  exact h.scope _

theorem removeNamespace (h : b.Shadows ρ b') (name : Name) :
    (b.removeNamespace name).1.Shadows ρ (b'.removeNamespace name).1 ∧
      (b'.removeNamespace name).2 = (b.removeNamespace name).2 := by
  rw [Buffer.removeNamespace, Buffer.removeNamespace, h.namespaces]
  cases b.namespaces.find? name with
  | none => exact ⟨h, rfl⟩
  | some holders => exact ⟨h.scope _, rfl⟩

theorem clear (h : b.Shadows ρ b') : b.clear.Shadows ρ b'.clear := h.of_entries rfl

theorem remove?_cases (h : b.Shadows ρ b') (name : Name) :
    (b.remove? name = none ∧ b'.remove? name = none) ∨
      ∃ block c c', b.remove? name = some (block, c) ∧ b'.remove? name = some (block, c') ∧
        c.Shadows ρ c' := by
  have same := h.find? name
  rw [remove?, remove?]
  cases found : b.entries.find? name with
  | none =>
    rw [found, Option.map_none, Option.map_eq_none_iff] at same
    exact .inl ⟨rfl, by rw [same]; rfl⟩
  | some e =>
    rw [found, Option.map_some, Option.map_eq_some_iff] at same
    obtain ⟨e', found', same⟩ := same
    have block : e'.block = e.block := (Entry.mk.inj same).1
    refine .inr ⟨e.block, _, _, rfl, by rw [found', Option.map_some, block], h.of_entries ?_⟩
    rw [← Table.erase_mapValues, ← Table.erase_mapValues, h.marks]

theorem requests_eq (h : b.Shadows ρ b') : b.requests = b.pending :=
  List.filter_eq_self.mpr fun w hw => by simpa using h.plain w hw

theorem claimants_eq (h : b.Shadows ρ b') (block : Block) :
    b'.claimants block = (b.claimants block).map (Waiter.renumber ρ) := by
  have inside : b'.claimants block = b'.requests.filter (Waiter.claims block) := by
    rw [claimants, Buffer.requests, List.filter_filter]
    apply List.filter_congr
    intro w _
    by_cases once : w.demand = .once
    · simp [once]
    · simp [Waiter.claims, once]
  rw [inside, h.requests, List.filter_map]
  rfl

theorem takers_eq (h : b.Shadows ρ b') (block : Block) :
    b'.takers block = (b.takers block).map (Waiter.renumber ρ) := by
  rw [takers, takers, h.claimants_eq, h.bestEffort]
  split
  · exact (List.map_take ..).symm
  · rfl

theorem watchers_eq_nil (h : b.Shadows ρ b') (block : Block) : b.watchers block = [] := by
  rw [watchers, List.filter_eq_nil_iff]
  intro w hw sees
  simp [watches, h.plain w hw] at sees

end Shadows

/-- The block is delivered to filters alone, where one delivery is all there is. -/
def CopiedOnly (b : Buffer) (block : Block) : Prop :=
  b.bestEffort = true ∧ b.claimants block = [] ∧ b.watchers block ≠ []

def Echoes (ρ : Nat → Nat) (ns ns' : List Notice) : Prop :=
  ns'.filter (fun n => n ≠ .claimed) = (ns.filter fun n => n ≠ .claimed).map (Notice.renumber ρ)

theorem echoes_self (ρ : Nat → Nat) {ns : List Notice}
    (all : ∀ n ∈ ns, n = .space ∨ n = .claimed) : Echoes ρ ns ns := by
  rw [Echoes, List.map_congr_left (g := id), List.map_id]
  intro n told
  obtain rfl | rfl := all n (List.mem_of_mem_filter told)
  · rfl
  · rfl

theorem echoes_delivery (ρ : Nat → Nat) {c c' : Buffer} (mode : c'.bestEffort = c.bestEffort) :
    Echoes ρ c.deliveryNotices c'.deliveryNotices := by
  rw [deliveryNotices, deliveryNotices, mode]
  split
  · exact echoes_self ρ (by simp)
  · exact echoes_self ρ (by simp)

theorem Shadows.mark_newEntry (h : b.Shadows ρ b') (orderly : b.Orderly) (orderly' : b'.Orderly)
    (shared : ¬b'.CopiedOnly block) : (b'.newEntry block).mark b.bestEffort =
      (b.newEntry block).mark b.bestEffort := by
  -- the counts differ by the filters, but no more shows of them than whether they are zero
  have read : b.bestEffort = true → (b'.recipients block ≠ 0 ↔ b.recipients block ≠ 0) := by
    intro best
    rw [orderly.recipients_eq, orderly'.recipients_eq, h.watchers_eq_nil, h.takers_eq,
      List.length_map, List.length_nil]
    by_cases nobody : b.takers block = []
    · have unclaimed : b'.claimants block = [] := by
        rw [takers, best, if_pos rfl, List.take_eq_nil_iff] at nobody
        rw [h.claimants_eq, nobody.resolve_left one_ne_zero, List.map_nil]
      have unseen : b'.watchers block = [] := by
        by_contra seen
        exact shared ⟨h.bestEffort.trans best, unclaimed, seen⟩
      rw [nobody, unseen]
      rfl
    · have some := List.length_pos_iff.mpr nobody
      omega
  rw [newEntry, newEntry, Entry.mark, Entry.mark, h.nextOrder]
  congr 1
  exact if_congr (and_congr_right read) rfl rfl

section Filed

variable {c c' : Buffer} {ns ns' : List Notice}

theorem Shadows.filed_plain (h : b.Shadows ρ b') (orderly : b.Orderly)
    (filed : b.file block = (c, ns)) : ∀ w ∈ c.pending, w.demand = .once := by
  intro w hw
  obtain ⟨v, hv, -, -, once⟩ := file_continues orderly.consistent filed w hw
  exact once.mpr (h.plain v hv)

theorem Shadows.filed_pending (h : b.Shadows ρ b') (orderly : b.Orderly)
    (filed : b.file block = (c, ns)) :
    c.pending = b.pending.filter fun w => w ∉ b.takers block := by
  have all : c.requests = c.pending :=
    List.filter_eq_self.mpr fun w hw => by simpa using h.filed_plain orderly filed w hw
  rw [← all, orderly.file_requests filed, h.requests_eq]

theorem Shadows.filed_shelf (h : b.Shadows ρ b') (orderly : b.Orderly) (orderly' : b'.Orderly)
    (shared : ¬b'.CopiedOnly block) (filed : b.file block = (c, ns))
    (filed' : b'.file block = (c', ns')) : c'.shelf = c.shelf := by
  have is := file_filed orderly.consistent filed
  have is' := file_filed orderly'.consistent filed'
  have mode : c.bestEffort = b.bestEffort := by
    rw [Buffer.bestEffort, Buffer.bestEffort, is.config]
  have mode' : c'.bestEffort = b.bestEffort := by
    rw [← h.bestEffort, Buffer.bestEffort, Buffer.bestEffort, is'.config]
  rw [shelf, shelf, mode, mode', is.entries, is'.entries, ← Table.insert_mapValues,
    ← Table.insert_mapValues, h.marks, h.mark_newEntry orderly orderly' shared]

theorem Shadows.filed_requests (h : b.Shadows ρ b') (orderly : b.Orderly) (orderly' : b'.Orderly)
    (filed : b.file block = (c, ns)) (filed' : b'.file block = (c', ns')) :
    c'.requests = c.pending.map (Waiter.renumber ρ) := by
  rw [orderly'.file_requests filed', h.requests, h.takers_eq, h.filed_pending orderly filed,
    List.filter_map]
  congr 1
  apply List.filter_congr
  intro w _
  rw [Function.comp_apply, decide_eq_decide, not_iff_not,
    List.mem_map_of_injective (Waiter.renumber_injective h.ascending.injective)]

theorem Shadows.file_echoes (h : b.Shadows ρ b') (orderly : b.Orderly) (orderly' : b'.Orderly)
    (filed : b.file block = (c, ns)) (filed' : b'.file block = (c', ns')) : Echoes ρ ns ns' := by
  have unclaimed (n : Nat) :
      (if n = 0 then [] else [Notice.claimed]).filter (fun n => n ≠ .claimed) = [] := by
    split <;> rfl
  have all (l : List Waiter) : (l.map fun v => Notice.handed v.id block).filter
      (fun n => n ≠ .claimed) = l.map fun v => Notice.handed v.id block := by
    rw [List.filter_eq_self]
    simp
  rw [Echoes, orderly.file_notices filed, orderly'.file_notices filed', h.takers_eq,
    List.filter_append, List.filter_append, unclaimed, unclaimed, List.append_nil,
    List.append_nil, all, all, List.map_map, List.map_map]
  rfl

theorem Shadows.file (h : b.Shadows ρ b') (orderly : b.Orderly) (orderly' : b'.Orderly)
    (shared : ¬b'.CopiedOnly block) (filed : b.file block = (c, ns))
    (filed' : b'.file block = (c', ns')) : c.Shadows ρ c' := by
  have is := file_filed orderly.consistent filed
  have is' := file_filed orderly'.consistent filed'
  refine ⟨⟨?_, ?_, ?_, ?_, ?_, h.filed_shelf orderly orderly' shared filed filed'⟩, h.ascending, ?_,
    h.filed_requests orderly orderly' filed filed', h.filed_plain orderly filed⟩
  · rw [is.config, is'.config, h.config]
  · rw [is.phase, is'.phase, h.phase]
  · rw [is.capacity, is'.capacity, h.capacity]
  · rw [is.namespaces, is'.namespaces, h.namespaces]
  · rw [is.nextOrder, is'.nextOrder, h.nextOrder]
  · rw [is.nextId, is'.nextId]
    exact h.next

end Filed

theorem makeRoom_copiedOnly (b : Buffer) (block : Block) (name : Name) :
    (b.makeRoom name).CopiedOnly block ↔ b.CopiedOnly block := by
  obtain ⟨_, eq⟩ := b.makeRoom_eq name
  rw [eq]
  rfl

theorem Shadows.tryInsert_cases (h : b.Shadows ρ b') (orderly : b.Orderly)
    (orderly' : b'.Orderly) (block : Block) :
    (∃ error, b.tryInsert block = .refused error ∧ b'.tryInsert block = .refused error) ∨
      (∃ c c', b.tryInsert block = .full c ∧ b'.tryInsert block = .full c' ∧ c.Shadows ρ c') ∨
      ∃ c ns c' ns', b.tryInsert block = .filed c ns ∧ b'.tryInsert block = .filed c' ns' ∧
        (¬b'.CopiedOnly block → c.Shadows ρ c' ∧ Echoes ρ ns ns') := by
  have room := h.makeRoom block.name
  unfold tryInsert
  rw [h.phase, h.admits]
  by_cases phase : b.phase = .accepting
  · rw [if_neg (not_not.mpr phase), if_neg (not_not.mpr phase)]
    by_cases refused : (!b.admits block.name) = true
    · rw [if_pos refused, if_pos refused]
      exact .inl ⟨_, rfl, rfl⟩
    · rw [if_neg refused, if_neg refused]
      dsimp only
      rw [room.isFullFor]
      by_cases full : (b.makeRoom block.name).isFullFor block.name = true
      · rw [if_pos full, if_pos full]
        exact .inr (.inl ⟨_, _, rfl, rfl, room⟩)
      · rw [if_neg full, if_neg full]
        have swept := orderly.makeRoom block.name
        have swept' := orderly'.makeRoom block.name
        refine .inr (.inr ⟨_, _, _, _, rfl, rfl, fun shared => ⟨?_, ?_⟩⟩)
        · exact room.file swept swept' (mt (makeRoom_copiedOnly _ _ _).mp shared) rfl rfl
        · exact room.file_echoes swept swept' rfl rfl
  · rw [if_pos phase, if_pos phase]
    exact .inl ⟨_, rfl, rfl⟩

end Buffer

end NamedContent
