import Mathlib
import NamedContent.Proofs.Buffer.Waiters

/-!
# What an offer does to the waiters

An offer goes through the registrations one by one. It touches nothing but the
waiters and their feeds. A request leaves the table exactly when it is handed
the block, and a matching request is left waiting only in best-effort mode
after another one has taken the block.
-/

set_option autoImplicit false

namespace NamedContent.Buffer

structure SameStore (b b' : Buffer) : Prop where
  config : b'.config = b.config
  phase : b'.phase = b.phase
  capacity : b'.capacity = b.capacity
  entries : b'.entries = b.entries
  namespaces : b'.namespaces = b.namespaces
  nextId : b'.nextId = b.nextId
  nextOrder : b'.nextOrder = b.nextOrder

theorem SameStore.refl (b : Buffer) : b.SameStore b := ⟨rfl, rfl, rfl, rfl, rfl, rfl, rfl⟩

theorem SameStore.trans {a b c : Buffer} (h : a.SameStore b) (h' : b.SameStore c) :
    a.SameStore c :=
  ⟨h'.config.trans h.config, h'.phase.trans h.phase, h'.capacity.trans h.capacity,
    h'.entries.trans h.entries, h'.namespaces.trans h.namespaces, h'.nextId.trans h.nextId,
    h'.nextOrder.trans h.nextOrder⟩

theorem SameStore.bestEffort {b b' : Buffer} (h : b.SameStore b') :
    b'.bestEffort = b.bestEffort := by
  rw [Buffer.bestEffort, Buffer.bestEffort, h.config]

theorem forget_sameStore (b : Buffer) (id : Nat) : b.SameStore (b.forget id) := by
  obtain ⟨matcher, h⟩ := b.forget_eq id
  rw [h]
  exact ⟨rfl, rfl, rfl, rfl, rfl, rfl, rfl⟩

section Copy

variable (b : Buffer) (block : Block) (w : Waiter) (limit : Option Nat) (received : Nat)

def copied : Buffer :=
  { b with
    feeds := b.feeds.map fun f => if f.id = w.id then { f with queue := f.queue ++ [block] } else f
    pending := b.pending.map fun v =>
      if v.id = w.id then { v with demand := .standing limit (received + 1) } else v }

theorem copyTo_cases : b.copyTo block w limit received = b.copied block w limit received ∨
    b.copyTo block w limit received = (b.copied block w limit received).forget w.id := by
  cases limit with
  | none => exact .inl rfl
  | some limit =>
    by_cases full : limit ≤ received + 1
    · exact .inr (if_pos full)
    · exact .inl (if_neg full)

theorem copyTo_sameStore : b.SameStore (b.copyTo block w limit received) := by
  have same : b.SameStore (b.copied block w limit received) := ⟨rfl, rfl, rfl, rfl, rfl, rfl, rfl⟩
  rcases b.copyTo_cases block w limit received with h | h
  · rw [h]
    exact same
  · rw [h]
    exact same.trans (forget_sameStore _ _)

theorem copyTo_consistent {b : Buffer} (h : b.Consistent) :
    (b.copyTo block w limit received).Consistent := by
  have same : (b.copied block w limit received).Consistent := by
    refine h.of_same_waiters ?_ rfl rfl h.keyed
    rw [copied, List.map_map]
    apply List.map_congr_left
    intro v _
    by_cases this : v.id = w.id
    · simp [this]
    · simp [this]
  rcases b.copyTo_cases block w limit received with h | h
  · rw [h]
    exact same
  · rw [h]
    exact forget_consistent same w.id

theorem mem_copyTo_once {b : Buffer} (h : b.Consistent) (hw : w ∈ b.pending)
    (demand : w.demand = .standing limit received) {v : Waiter} (once : v.demand = .once) :
    v ∈ (b.copyTo block w limit received).pending ↔ v ∈ b.pending := by
  have same : v ∈ (b.copied block w limit received).pending ↔ v ∈ b.pending := by
    rw [copied, List.mem_map]
    constructor
    · intro found
      obtain ⟨u, hu, eq⟩ := found
      by_cases this : u.id = w.id
      · rw [if_pos this] at eq
        rw [← eq] at once
        contradiction
      · rw [if_neg this] at eq
        exact eq ▸ hu
    · intro hv
      refine ⟨v, hv, if_neg ?_⟩
      intro this
      rw [same_of_id h hv hw this, demand] at once
      contradiction
  rcases b.copyTo_cases block w limit received with eq | eq
  · rw [eq]
    exact same
  · rw [eq, mem_forget_pending, same]
    refine ⟨And.left, fun hv => ⟨hv, ?_⟩⟩
    intro this
    rw [same_of_id h hv hw this, demand] at once
    contradiction

end Copy

/-- What holds of an offer at every point of its way through the waiters. -/
structure Offering (b : Buffer) (block : Block) (o : Offer) : Prop where
  store : b.SameStore o.buffer
  consistent : o.buffer.Consistent
  once : ∀ w : Waiter, w.demand = .once →
    (w ∈ o.buffer.pending ↔ w ∈ b.pending ∧ .handed w.id block ∉ o.notices)
  handed : ∀ n ∈ o.notices, ∃ w ∈ b.pending,
    n = .handed w.id block ∧ w.demand = .once ∧ w.interest.accepts block.name = true
  satisfied : o.satisfied = true ↔ o.notices ≠ []
  counted : o.notices.length ≤ o.taken
  single : b.bestEffort = true → o.notices.length ≤ 1

theorem offering_start {b : Buffer} (h : b.Consistent) (block : Block) :
    b.Offering block ⟨b, 0, false, []⟩ :=
  ⟨SameStore.refl b, h, by simp, by simp, by simp, by simp, by simp⟩

theorem offering_serve {b : Buffer} {block : Block} {o : Offer} (h : b.Offering block o)
    {w : Waiter} (hw : w ∈ o.buffer.pending) (demand : w.demand = .once)
    (accepts : w.interest.accepts block.name = true)
    (free : ¬(o.satisfied = true ∧ o.buffer.bestEffort = true)) :
    b.Offering block
      ⟨o.buffer.forget w.id, o.taken + 1, true, o.notices ++ [.handed w.id block]⟩ where
  store := h.store.trans (forget_sameStore _ _)
  consistent := forget_consistent h.consistent w.id
  once := by
    intro v hv
    have known := h.once v hv
    rw [mem_forget_pending, known, List.mem_append, List.mem_singleton]
    simp only [Notice.handed.injEq, and_true, not_or, and_assoc, ne_eq]
  handed := by
    intro n hn
    rcases List.mem_append.mp hn with hn | hn
    · exact h.handed n hn
    · exact ⟨w, ((h.once w demand).mp hw).1, List.mem_singleton.mp hn, demand, accepts⟩
  satisfied := by simp
  counted := by
    have counted := h.counted
    simpa using counted
  single := by
    intro mode
    have none_yet : o.notices = [] := by
      by_contra some
      exact free ⟨h.satisfied.mpr some, h.store.bestEffort.trans mode⟩
    simp [none_yet]

theorem offering_copy {b : Buffer} {block : Block} {o : Offer} (h : b.Offering block o)
    {w : Waiter} (hw : w ∈ o.buffer.pending) {limit : Option Nat} {received : Nat}
    (demand : w.demand = .standing limit received) :
    b.Offering block
      { o with buffer := o.buffer.copyTo block w limit received, taken := o.taken + 1 } where
  store := h.store.trans (copyTo_sameStore _ _ _ _ _)
  consistent := copyTo_consistent _ _ _ _ h.consistent
  once := by
    intro v hv
    rw [mem_copyTo_once block w limit received h.consistent hw demand hv]
    exact h.once v hv
  handed := h.handed
  satisfied := h.satisfied
  counted := h.counted.trans (Nat.le_succ _)
  single := h.single

theorem toId_cases {o : Offer} (h : o.buffer.Consistent) (block : Block) (id : Nat) :
    (o.toId block id = o ∧ ∀ w ∈ o.buffer.pending, w.id = id → w.demand = .once →
      w.interest.accepts block.name = true → o.satisfied = true ∧ o.buffer.bestEffort = true) ∨
    (∃ w ∈ o.buffer.pending, w.id = id ∧ w.demand = .once ∧
      w.interest.accepts block.name = true ∧
      ¬(o.satisfied = true ∧ o.buffer.bestEffort = true) ∧
      o.toId block id =
        ⟨o.buffer.forget w.id, o.taken + 1, true, o.notices ++ [.handed w.id block]⟩) ∨
    (∃ w ∈ o.buffer.pending, w.id = id ∧ ∃ limit received, w.demand = .standing limit received ∧
      o.toId block id =
        { o with buffer := o.buffer.copyTo block w limit received, taken := o.taken + 1 }) := by
  unfold Offer.toId
  cases found : o.buffer.waiter? id with
  | none =>
    refine .inl ⟨rfl, ?_⟩
    intro w hw same
    rw [(waiter?_eq_some h).mpr ⟨hw, same⟩] at found
    contradiction
  | some w =>
    obtain ⟨hw, rfl⟩ := (waiter?_eq_some h).mp found
    have only : ∀ v ∈ o.buffer.pending, v.id = w.id → v = w :=
      fun v hv same => same_of_id h hv hw same
    by_cases accepts : w.interest.accepts block.name = true
    · simp only [if_pos accepts, Offer.toWaiter]
      cases demand : w.demand with
      | once =>
        by_cases busy : o.satisfied = true ∧ o.buffer.bestEffort = true
        · refine .inl ⟨by simp [busy], fun _ _ _ _ _ => busy⟩
        · exact .inr (.inl ⟨w, hw, rfl, demand, accepts, busy, by simp [busy]⟩)
      | standing limit received =>
        by_cases room : o.buffer.hasRoom w.id = true
        · exact .inr (.inr ⟨w, hw, rfl, limit, received, demand, by simp [room]⟩)
        · refine .inl ⟨by simp [room], ?_⟩
          intro v hv same once
          rw [only v hv same, demand] at once
          contradiction
    · refine .inl ⟨by simp [accepts], ?_⟩
      intro v hv same _ match_v
      rw [only v hv same] at match_v
      contradiction

theorem toId_offering {b : Buffer} {block : Block} {o : Offer} (h : b.Offering block o) (id : Nat) :
    b.Offering block (o.toId block id) := by
  obtain ⟨same, -⟩ | ⟨w, hw, -, demand, accepts, free, served⟩ |
    ⟨w, hw, -, limit, received, demand, copied⟩ := toId_cases h.consistent block id
  · rw [same]
    exact h
  · rw [served]
    exact offering_serve h hw demand accepts free
  · rw [copied]
    exact offering_copy h hw demand

/-- A matching request under this id is waiting only because another one was faster. -/
def Settled (block : Block) (o : Offer) (id : Nat) : Prop :=
  ∀ w ∈ o.buffer.pending, w.id = id → w.demand = .once → w.interest.accepts block.name = true →
    o.satisfied = true ∧ o.buffer.bestEffort = true

theorem toId_settled {o : Offer} (h : o.buffer.Consistent) (block : Block) (id : Nat) :
    Settled block (o.toId block id) id := by
  obtain ⟨same, settled⟩ | ⟨w, hw, rfl, -, -, -, served⟩ |
    ⟨w, hw, rfl, limit, received, demand, copied⟩ := toId_cases h block id
  · rw [same]
    exact settled
  · rw [served]
    intro v hv same
    exact absurd same (mem_forget_pending.mp hv).2
  · rw [copied]
    intro v hv same once
    have old := (mem_copyTo_once block w limit received h hw demand once).mp hv
    rw [same_of_id h old hw same, demand] at once
    contradiction

theorem settled_toId {o : Offer} (h : o.buffer.Consistent) {block : Block} {id : Nat}
    (settled : Settled block o id) (other : Nat) : Settled block (o.toId block other) id := by
  obtain ⟨same, -⟩ | ⟨w, -, -, -, -, -, served⟩ | ⟨w, hw, -, limit, received, demand, copied⟩ :=
    toId_cases h block other
  · rw [same]
    exact settled
  · rw [served]
    intro v hv same once accepts
    have busy := settled v (mem_forget_pending.mp hv).1 same once accepts
    exact ⟨rfl, (forget_sameStore _ _).bestEffort.trans busy.2⟩
  · rw [copied]
    intro v hv same once accepts
    have old := (mem_copyTo_once block w limit received h hw demand once).mp hv
    have busy := settled v old same once accepts
    exact ⟨busy.1, (copyTo_sameStore _ _ _ _ _).bestEffort.trans busy.2⟩

theorem fold_offering {b : Buffer} {block : Block} {o : Offer} (h : b.Offering block o)
    (ids : List Nat) : b.Offering block (ids.foldl (Offer.toId block) o) := by
  induction ids generalizing o with
  | nil => exact h
  | cons id ids ih => exact ih (toId_offering h id)

theorem fold_keeps_settled {b : Buffer} {block : Block} {o : Offer} (h : b.Offering block o)
    {id : Nat} (settled : Settled block o id) (ids : List Nat) :
    Settled block (ids.foldl (Offer.toId block) o) id := by
  induction ids generalizing o with
  | nil => exact settled
  | cons other ids ih => exact ih (toId_offering h other) (settled_toId h.consistent settled other)

theorem fold_settled {b : Buffer} {block : Block} {o : Offer} (h : b.Offering block o)
    {ids : List Nat} {id : Nat} (listed : id ∈ ids) :
    Settled block (ids.foldl (Offer.toId block) o) id := by
  induction ids generalizing o with
  | nil => contradiction
  | cons first ids ih =>
    -- settled at its own turn, and kept so through all that follow
    rcases List.mem_cons.mp listed with rfl | later
    · exact fold_keeps_settled (toId_offering h id) (toId_settled h.consistent block id) ids
    · exact ih (toId_offering h first) later

theorem offer_offering {b : Buffer} (h : b.Consistent) (block : Block) :
    b.Offering block (b.offer block) :=
  fold_offering (offering_start h block) _

theorem offer_settled {b : Buffer} (h : b.Consistent) (block : Block) {w : Waiter}
    (hw : w ∈ (b.offer block).buffer.pending) (once : w.demand = .once)
    (accepts : w.interest.accepts block.name = true) :
    b.bestEffort = true ∧ (b.offer block).notices ≠ [] := by
  have offering := offer_offering h block
  obtain ⟨old, -⟩ := (offering.once w once).mp hw
  have covers : w.interest.name.isPrefixOf block.name = true := by
    rw [Interest.accepts, Bool.and_eq_true] at accepts
    exact accepts.1
  have found : w.id ∈ b.matcher.matching block.name :=
    Matcher.mem_matching.mpr ⟨w.interest.name, covers, (h.held _ _).mpr ⟨w, old, rfl, rfl⟩⟩
  have settled : Settled block (b.offer block) w.id :=
    fold_settled (offering_start h block) (List.mem_mergeSort.mpr found)
  obtain ⟨satisfied, mode⟩ := settled w hw rfl once accepts
  exact ⟨offering.store.bestEffort ▸ mode, offering.satisfied.mp satisfied⟩

end NamedContent.Buffer
