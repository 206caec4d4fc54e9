import Mathlib
import NamedContent.Proofs.Buffer.Filters

/-!
# Copies for the filters

An offer of a block adds copies of it to the feeds and does nothing else to
them. Whoever counts as a reader of a block that is filed has been told of it as
a waiting request, or has got a copy into its feed.
-/

set_option autoImplicit false

namespace NamedContent

def Feed.more (copies : Nat) (block : Block) (feed : Feed) : Feed :=
  { feed with queue := feed.queue ++ List.replicate copies block }

theorem Feed.more_zero (block : Block) (feed : Feed) : feed.more 0 block = feed := by
  simp [Feed.more]

theorem Feed.more_more (n k : Nat) (block : Block) (feed : Feed) :
    (feed.more n block).more k block = feed.more (n + k) block := by
  simp only [Feed.more, List.append_assoc, List.replicate_append_replicate]

namespace Buffer

variable {b b' : Buffer} {ns : List Notice} {block : Block}

theorem copyTo_feed? (b : Buffer) (block : Block) (w : Waiter) (limit : Option Nat) (got id : Nat) :
    (b.copyTo block w limit got).feed? id =
      (b.feed? id).map (Feed.more (if id = w.id then 1 else 0) block) := by
  have feeds : (b.copyTo block w limit got).feeds = (b.copied block w limit got).feeds := by
    rcases b.copyTo_cases block w limit got with eq | eq
    · rw [eq]
    · rw [eq, forget_feeds]
  have copied : (b.copied block w limit got).feed? id = (b.feed? id).map fun f =>
      if f.id = w.id then { f with queue := f.queue ++ [block] } else f :=
    feed?_map b _ (fun f => by split <;> rfl) id
  rw [feed?, feeds, ← feed?, copied]
  cases found : b.feed? id with
  | none => rfl
  | some feed =>
    obtain rfl : feed.id = id := by simpa using List.find?_some found
    rw [Option.map_some, Option.map_some]
    by_cases same : feed.id = w.id
    · rw [if_pos same, if_pos same]
      rfl
    · rw [if_neg same, if_neg same, Feed.more_zero]

def Spreads (b : Buffer) (block : Block) (b' : Buffer) : Prop :=
  ∀ id, ∃ copies, b'.feed? id = (b.feed? id).map (Feed.more copies block)

def Copies (b : Buffer) (block : Block) (b' : Buffer) : Prop :=
  ∃ id feed copies, b.feed? id = some feed ∧ b'.feed? id = some (feed.more (copies + 1) block)

/-- What an offer has done to the feeds, at every point of its way. -/
structure Spreading (b : Buffer) (block : Block) (o : Offer) : Prop where
  spreads : b.Spreads block o.buffer
  takers : o.taken ≠ 0 → o.notices ≠ [] ∨ b.Copies block o.buffer

theorem copied_has_room {o : Offer} (h : o.buffer.Consistent) {w : Waiter}
    (hw : w ∈ o.buffer.pending) {limit : Option Nat} {got : Nat}
    (demand : w.demand = .standing limit got)
    (copied : o.toId block w.id =
      { o with buffer := o.buffer.copyTo block w limit got, taken := o.taken + 1 }) :
    ∃ feed, o.buffer.feed? w.id = some feed := by
  by_contra none
  have closed : o.buffer.hasRoom w.id = false := by
    cases found : o.buffer.feed? w.id with
    | none => rw [hasRoom, found]
    | some feed => exact absurd ⟨feed, found⟩ none
  -- a filter without a feed would have been passed over
  have count := congrArg Offer.taken copied
  have found := (waiter?_eq_some h).mpr ⟨hw, rfl⟩
  rw [Offer.toId, found] at count
  simp only [Offer.toWaiter, demand, closed] at count
  split at count
  · exact absurd count (Nat.ne_of_lt (Nat.lt_succ_self _))
  · exact absurd count (Nat.ne_of_lt (Nat.lt_succ_self _))

theorem toId_spreading {o : Offer} (offering : b.Offering block o) (h : b.Spreading block o)
    (id : Nat) : b.Spreading block (o.toId block id) := by
  obtain ⟨same, -⟩ | ⟨w, -, -, -, -, -, served⟩ | ⟨w, hw, rfl, limit, got, demand, copied⟩ :=
    toId_cases offering.consistent block id
  · rwa [same]
  · have feeds (other : Nat) : (o.buffer.forget w.id).feed? other = o.buffer.feed? other := by
      rw [feed?, forget_feeds, ← feed?]
    rw [served]
    refine ⟨fun other => ?_, fun _ => .inl (by simp)⟩
    rw [feeds]
    exact h.spreads other
  · obtain ⟨feed, found⟩ := copied_has_room offering.consistent hw demand copied
    have feeds := copyTo_feed? o.buffer block w limit got
    rw [copied]
    constructor
    · intro other
      obtain ⟨copies, before⟩ := h.spreads other
      refine ⟨copies + if other = w.id then 1 else 0, ?_⟩
      rw [feeds, before, Option.map_map]
      congr 1
      funext first
      exact first.more_more _ _ _
    · intro _
      obtain ⟨copies, before⟩ := h.spreads w.id
      cases first : b.feed? w.id with
      | none =>
        rw [before, first] at found
        contradiction
      | some feed' =>
        refine .inr ⟨w.id, feed', copies, first, ?_⟩
        rw [feeds, before, first, if_pos rfl]
        exact congrArg some (feed'.more_more _ _ _)

theorem offer_spreading (h : b.Consistent) (block : Block) : b.Spreading block (b.offer block) := by
  refine offer_preserves h (fun o id offering spreading => toId_spreading offering spreading id) ?_
  refine ⟨fun id => ⟨0, ?_⟩, fun some => absurd rfl some⟩
  cases b.feed? id with
  | none => rfl
  | some feed => exact congrArg some (feed.more_zero block).symm

theorem file_copies (h : b.Consistent) (filed : b.file block = (b', ns))
    (taken : b.recipients block ≠ 0) : (∃ id, .handed id block ∈ ns) ∨ b.Copies block b' := by
  have spreading : { b with nextOrder := b.nextOrder + 1 }.Spreading block (b.filingOffer block) :=
    offer_spreading (numbered_consistent h _) block
  have offering : { b with nextOrder := b.nextOrder + 1 }.Offering block (b.filingOffer block) :=
    filingOffer_offering h
  rw [file_eq h] at filed
  obtain ⟨rfl, rfl⟩ := Prod.mk.inj filed
  refine (spreading.takers taken).imp_left fun some => ?_
  obtain ⟨n, told⟩ := List.exists_mem_of_ne_nil _ some
  obtain ⟨w, -, rfl, -⟩ := offering.handed n told
  exact ⟨w.id, handed_mem_filingNotices.mpr told⟩

theorem uncopied_of_filed (h : b.Consistent) (filed : b.file block = (b', ns))
    (nobody : b.recipients block = 0) : ¬b.Copies block b' := by
  have untouched : (b.filingOffer block).taken = 0 →
      (b.filingOffer block).buffer.feeds = b.feeds := by
    refine offer_preserves (P := fun o => o.taken = 0 → o.buffer.feeds = b.feeds)
      (numbered_consistent h _) ?_ fun _ => rfl
    intro o id offering same none
    obtain ⟨passed, -⟩ | ⟨_, -, -, -, -, -, served⟩ | ⟨_, -, -, _, _, -, copied⟩ :=
      toId_cases offering.consistent block id
    · rw [passed] at none ⊢
      exact same none
    · rw [served] at none
      contradiction
    · rw [copied] at none
      contradiction
  rw [file_eq h] at filed
  obtain ⟨rfl, -⟩ := Prod.mk.inj filed
  rintro ⟨id, feed, copies, before, after⟩
  have after : b.feed? id = some (feed.more (copies + 1) block) := by
    rw [← after, feed?, feed?]
    exact congrArg _ (untouched nobody).symm
  have longer := congrArg (fun feed => feed.queue.length) (Option.some.inj (before.symm.trans after))
  simp [Feed.more] at longer

end Buffer

end NamedContent
