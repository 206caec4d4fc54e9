import Mathlib
import NamedContent.Proofs.Buffer.Filing

/-!
# Who takes a block that is filed

Whoever waits after an offer has waited before it, for the same. A block that
is filed counts as taken only if it is handed to a request, or if a standing
filter accepts it.
-/

set_option autoImplicit false

namespace NamedContent

def Waiter.Continues (v w : Waiter) : Prop :=
  v.id = w.id ∧ v.interest = w.interest ∧ (v.demand = .once ↔ w.demand = .once)

theorem Waiter.Continues.refl (w : Waiter) : w.Continues w := ⟨rfl, rfl, Iff.rfl⟩

theorem Waiter.Continues.trans {u v w : Waiter} (h : u.Continues v) (h' : v.Continues w) :
    u.Continues w :=
  ⟨h.1.trans h'.1, h.2.1.trans h'.2.1, h.2.2.trans h'.2.2⟩

namespace Buffer

def Continues (b' b : Buffer) : Prop := ∀ v ∈ b'.pending, ∃ w ∈ b.pending, v.Continues w

theorem Continues.of_subset {b b' : Buffer} (subset : ∀ w ∈ b'.pending, w ∈ b.pending) :
    b'.Continues b :=
  fun v hv => ⟨v, subset v hv, .refl v⟩

theorem Continues.trans {a b c : Buffer} (h : c.Continues b) (h' : b.Continues a) :
    c.Continues a := by
  intro v hv
  obtain ⟨w, hw, same⟩ := h v hv
  obtain ⟨u, hu, same'⟩ := h' w hw
  exact ⟨u, hu, same.trans same'⟩

theorem forget_continues (b : Buffer) (id : Nat) : (b.forget id).Continues b :=
  .of_subset fun _ hw => (mem_forget_pending.mp hw).1

theorem copyTo_continues {b : Buffer} (h : b.Consistent) {w : Waiter} (hw : w ∈ b.pending)
    (block : Block) {limit : Option Nat} {received : Nat}
    (demand : w.demand = .standing limit received) :
    (b.copyTo block w limit received).Continues b := by
  have copied : (b.copied block w limit received).Continues b := by
    intro v hv
    obtain ⟨u, hu, rfl⟩ := List.mem_map.mp hv
    refine ⟨u, hu, ?_⟩
    by_cases same : u.id = w.id
    · obtain rfl := same_of_id h hu hw same
      rw [if_pos rfl]
      exact ⟨rfl, rfl, by simp [demand]⟩
    · rw [if_neg same]
      exact .refl u
  rcases b.copyTo_cases block w limit received with eq | eq
  · rwa [eq]
  · rw [eq]
    exact (forget_continues _ _).trans copied

/-- What an offer says of those who take the block, at every point of its way. -/
structure Reaching (b : Buffer) (block : Block) (o : Offer) : Prop where
  continues : o.buffer.Continues b
  takers : o.taken ≠ 0 → o.notices ≠ [] ∨
    ∃ w ∈ b.pending, w.demand ≠ .once ∧ w.interest.accepts block.name = true

theorem toId_reaching {b : Buffer} {block : Block} {o : Offer} (offering : b.Offering block o)
    (h : b.Reaching block o) (id : Nat) : b.Reaching block (o.toId block id) := by
  obtain ⟨same, -⟩ | ⟨w, -, -, -, -, -, served⟩ | ⟨w, hw, rfl, limit, received, demand, copied⟩ :=
    toId_cases offering.consistent block id
  · rw [same]
    exact h
  · rw [served]
    exact ⟨(forget_continues _ _).trans h.continues, fun _ => .inl (by simp)⟩
  · have accepts : w.interest.accepts block.name = true := by
      by_contra refuses
      have found := (waiter?_eq_some offering.consistent).mpr ⟨hw, rfl⟩
      have count := congrArg Offer.taken copied
      simp [Offer.toId, found, refuses] at count
    obtain ⟨v, hv, -, interest, once⟩ := h.continues w hw
    rw [copied]
    refine ⟨(copyTo_continues offering.consistent hw block demand).trans h.continues, fun _ => ?_⟩
    refine .inr ⟨v, hv, fun first => ?_, interest ▸ accepts⟩
    rw [demand] at once
    exact absurd (once.mpr first) (by simp)

theorem fold_reaching {b : Buffer} {block : Block} {o : Offer} (offering : b.Offering block o)
    (h : b.Reaching block o) (ids : List Nat) :
    b.Reaching block (ids.foldl (Offer.toId block) o) := by
  induction ids generalizing o with
  | nil => exact h
  | cons id ids ih => exact ih (toId_offering offering id) (toId_reaching offering h id)

theorem offer_reaching {b : Buffer} (h : b.Consistent) (block : Block) :
    b.Reaching block (b.offer block) :=
  fold_reaching (offering_start h block)
    ⟨.of_subset fun _ hw => hw, fun some => absurd rfl some⟩ _

section File

variable {b b' : Buffer} {block : Block} {ns : List Notice}

theorem file_continues (h : b.Consistent) (filed : b.file block = (b', ns)) : b'.Continues b := by
  have reaching := offer_reaching (numbered_consistent h (b.nextOrder + 1)) block
  rw [file_eq h] at filed
  obtain ⟨rfl, -⟩ := Prod.mk.inj filed
  exact reaching.continues

theorem file_takers (h : b.Consistent) (filed : b.file block = (b', ns))
    (taken : b.recipients block ≠ 0) : (∃ id, .handed id block ∈ ns) ∨
      ∃ w ∈ b.pending, w.demand ≠ .once ∧ w.interest.accepts block.name = true := by
  have reaching := offer_reaching (numbered_consistent h (b.nextOrder + 1)) block
  have offering : { b with nextOrder := b.nextOrder + 1 }.Offering block (b.filingOffer block) :=
    filingOffer_offering h
  rw [file_eq h] at filed
  obtain ⟨-, rfl⟩ := Prod.mk.inj filed
  refine (reaching.takers taken).imp_left fun some => ?_
  obtain ⟨n, told⟩ := List.exists_mem_of_ne_nil _ some
  obtain ⟨w, -, rfl, -⟩ := offering.handed n told
  exact ⟨w.id, handed_mem_filingNotices.mpr told⟩

end File

end Buffer

end NamedContent
