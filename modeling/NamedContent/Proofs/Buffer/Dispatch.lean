import Mathlib
import NamedContent.Proofs.Buffer.Copies
import NamedContent.Proofs.Matcher.Listing

/-!
# Who gets a block that is put

The matcher finds the waiters whose interests cover the name, and an offer goes
through them by age. So of the requests that accept the block all get it, in
best-effort mode only the oldest, and of the filters that accept it those with
room get a copy. The block is filed with the number of all these.
-/

set_option autoImplicit false

namespace NamedContent

def Waiter.claims (block : Block) (w : Waiter) : Bool :=
  w.demand = .once && w.interest.accepts block.name

namespace Buffer

variable {b b' : Buffer} {ns : List Notice} {block : Block}

/-- A filter that accepts the block and has room for it. -/
def watches (b : Buffer) (block : Block) (w : Waiter) : Bool :=
  w.demand ≠ .once && (w.interest.accepts block.name && b.hasRoom w.id)

def requests (b : Buffer) : List Waiter := b.pending.filter fun w => w.demand = .once

def claimants (b : Buffer) (block : Block) : List Waiter := b.pending.filter (Waiter.claims block)

/-- The requests that an offer hands the block to. -/
def takers (b : Buffer) (block : Block) : List Waiter :=
  if b.bestEffort then (b.claimants block).take 1 else b.claimants block

/-- The filters that an offer copies the block to. -/
def watchers (b : Buffer) (block : Block) : List Waiter := b.pending.filter (b.watches block)

def InOrder (b : Buffer) : Prop := (b.pending.map (·.id)).Pairwise (· < ·)

theorem InOrder.of_sublist (h : b.InOrder)
    (sublist : (b'.pending.map (·.id)).Sublist (b.pending.map (·.id))) : b'.InOrder :=
  h.sublist sublist

theorem forget_ids (b : Buffer) (id : Nat) :
    ((b.forget id).pending.map (·.id)).Sublist (b.pending.map (·.id)) := by
  rw [forget_pending]
  exact List.filter_sublist.map _

theorem copyTo_ids (b : Buffer) (block : Block) (w : Waiter) (limit : Option Nat) (got : Nat) :
    ((b.copyTo block w limit got).pending.map (·.id)).Sublist (b.pending.map (·.id)) := by
  have copied : (b.copied block w limit got).pending.map (·.id) = b.pending.map (·.id) := by
    rw [copied, List.map_map]
    apply List.map_congr_left
    intro v _
    by_cases same : v.id = w.id
    · simp [same]
    · simp [same]
  rw [← copied]
  rcases b.copyTo_cases block w limit got with eq | eq
  · rw [eq]
  · rw [eq]
    exact forget_ids _ _

theorem offer_ids (h : b.Consistent) (block : Block) :
    ((b.offer block).buffer.pending.map (·.id)).Sublist (b.pending.map (·.id)) := by
  refine offer_preserves
    (P := fun o => (o.buffer.pending.map (·.id)).Sublist (b.pending.map (·.id))) h ?_ (.refl _)
  intro o id offering sublist
  obtain ⟨same, -⟩ | ⟨w, -, -, -, -, -, served⟩ | ⟨w, -, -, limit, got, -, copied⟩ :=
    toId_cases offering.consistent block id
  · rwa [same]
  · rw [served]
    exact (forget_ids _ _).trans sublist
  · rw [copied]
    exact (copyTo_ids _ _ _ _ _).trans sublist

theorem enroll_inOrder (h : b.Consistent) (order : b.InOrder) (interest : Interest)
    (demand : Demand) : (b.enroll interest demand).InOrder := by
  rw [InOrder, enroll, List.map_append, List.pairwise_append]
  refine ⟨order, List.pairwise_singleton _ _, ?_⟩
  intro id known new fresh
  obtain ⟨w, hw, rfl⟩ := List.mem_map.mp known
  obtain rfl : new = b.nextId := by simpa using fresh
  exact h.below w hw

theorem Change.inOrder (change : b.Change b' ns) (h : b.Consistent) (order : b.InOrder) :
    b'.InOrder := by
  cases change with
  | @file block _ _ _ _ _ filed =>
    obtain ⟨entries, room⟩ := b.makeRoom_eq block.name
    have consistent := makeRoom_consistent h block.name
    rw [file_eq consistent] at filed
    obtain ⟨rfl, -⟩ := Prod.mk.inj filed
    refine order.of_sublist ((offer_ids (numbered_consistent consistent _) block).trans ?_)
    rw [room]
  | park => exact enroll_inOrder h order _ _
  | miss => exact (enroll_inOrder h order _ _).of_sublist (forget_ids _ _)
  | forget id => exact order.of_sublist (forget_ids b id)
  | shut => exact List.Pairwise.nil
  | close => exact List.Pairwise.nil
  | subscribe opened =>
    obtain ⟨-, rfl⟩ := subscribe?_eq_some opened
    exact enroll_inOrder h order _ _
  | dropFeed id => exact order.of_sublist (forget_ids b id)
  | _ => exact order

/-- The table of waiters and the matcher as they are at all times. -/
structure Orderly (b : Buffer) : Prop where
  consistent : b.Consistent
  tidy : b.matcher.Tidy
  inOrder : b.InOrder

theorem ofConfig_orderly (config : Config) : (ofConfig config).Orderly :=
  ⟨ofConfig_consistent config, Matcher.empty_tidy, List.Pairwise.nil⟩

theorem Change.orderly (change : b.Change b' ns) (h : b.Orderly) : b'.Orderly :=
  ⟨change.consistent h.consistent, change.tidy h.consistent h.tidy,
    change.inOrder h.consistent h.inOrder⟩

theorem Orderly.makeRoom (h : b.Orderly) (name : Name) : (b.makeRoom name).Orderly := by
  have consistent := makeRoom_consistent h.consistent name
  obtain ⟨entries, eq⟩ := b.makeRoom_eq name
  rw [eq] at consistent ⊢
  exact ⟨consistent, h.tidy, h.inOrder⟩

theorem Orderly.matching_nodup (h : b.Orderly) (name : Name) :
    (b.matcher.matching name).Nodup := by
  apply List.Nodup.sublist (b.matcher.matching_sublist name)
  have perm := registrations_perm h.consistent h.tidy
  rw [b.matcher.listeners_eq, (perm.map Prod.snd).nodup_iff, List.map_map]
  exact h.consistent.distinct

theorem Orderly.mergeSort_matching (h : b.Orderly) (name : Name) :
    (b.matcher.matching name).mergeSort =
      (b.pending.filter fun w => w.interest.name.isPrefixOf name).map (·.id) := by
  have covered : ((b.pending.filter fun w => w.interest.name.isPrefixOf name).map
      (·.id)).Pairwise (· < ·) := h.inOrder.sublist (List.filter_sublist.map _)
  have perm : (b.matcher.matching name).Perm
      ((b.pending.filter fun w => w.interest.name.isPrefixOf name).map (·.id)) := by
    rw [List.perm_ext_iff_of_nodup (h.matching_nodup name) (covered.imp Nat.ne_of_lt)]
    intro id
    simp only [Matcher.mem_matching, h.consistent.held, List.mem_map, List.mem_filter]
    constructor
    · rintro ⟨pattern, covers, w, hw, rfl, rfl⟩
      exact ⟨w, ⟨hw, covers⟩, rfl⟩
    · rintro ⟨w, ⟨hw, covers⟩, rfl⟩
      exact ⟨_, covers, w, hw, rfl, rfl⟩
  -- the same ids on both sides, and both sides ascend
  refine ((List.mergeSort_perm _ _).trans perm).eq_of_pairwise ?_ ?_ (covered.imp Nat.le_of_lt)
  · intro x y _ _ le ge
    exact Nat.le_antisymm le ge
  · simpa using @List.pairwise_mergeSort Nat (fun x y => decide (x ≤ y))
      (fun x y z => by simpa using Nat.le_trans) (fun x y => by simpa using Nat.le_total _ _)
      (b.matcher.matching name)

theorem toId_eq {o : Offer} (h : o.buffer.Consistent) {w : Waiter} (hw : w ∈ o.buffer.pending)
    (block : Block) : o.toId block w.id =
      if w.interest.accepts block.name then o.toWaiter block w else o := by
  rw [Offer.toId, (waiter?_eq_some h).mpr ⟨hw, rfl⟩]

theorem hasRoom_iff {id : Nat} {feed : Feed} (found : b.feed? id = some feed) :
    b.hasRoom id = true ↔ feed.queue.length < max b.config.filterQueue 1 := by
  rw [hasRoom, found, decide_eq_true_eq]

theorem mem_toId {o : Offer} (h : o.buffer.Consistent) {v : Waiter} (hv : v ∈ o.buffer.pending)
    {id : Nat} (other : v.id ≠ id) : v ∈ (o.toId block id).buffer.pending := by
  obtain ⟨same, -⟩ | ⟨w, -, rfl, -, -, -, served⟩ | ⟨w, -, rfl, limit, got, -, copied⟩ :=
    toId_cases h block id
  · rwa [same]
  · rw [served]
    exact mem_forget_pending.mpr ⟨hv, other⟩
  · have kept : v ∈ (o.buffer.copied block w limit got).pending :=
      List.mem_map.mpr ⟨v, hv, if_neg other⟩
    rw [copied]
    rcases o.buffer.copyTo_cases block w limit got with eq | eq
    · exact eq ▸ kept
    · exact eq ▸ mem_forget_pending.mpr ⟨kept, other⟩

theorem hasRoom_toId {o : Offer} (h : o.buffer.Consistent) {id other : Nat} (apart : other ≠ id) :
    (o.toId block id).buffer.hasRoom other = o.buffer.hasRoom other := by
  obtain ⟨same, -⟩ | ⟨w, -, -, -, -, -, served⟩ | ⟨w, -, rfl, limit, got, -, copied⟩ :=
    toId_cases h block id
  · rw [same]
  · rw [served, hasRoom, hasRoom, feed?, forget_feeds, forget_config, ← feed?]
  · rw [copied, hasRoom, hasRoom, copyTo_feed?, if_neg apart,
      (copyTo_sameStore o.buffer block w limit got).config]
    cases o.buffer.feed? other with
    | none => rfl
    | some feed => rw [Option.map_some, feed.more_zero]

def Offer.grants (o : Offer) (claims : List Waiter) : List Waiter :=
  if o.buffer.bestEffort then if o.satisfied then [] else claims.take 1 else claims

theorem toId_gives {o : Offer} (h : o.buffer.Consistent) (block : Block) {w : Waiter}
    (hw : w ∈ o.buffer.pending) (rest : List Waiter) :
    let o' := o.toId block w.id
    o'.notices ++ (o'.grants rest).map (fun v => Notice.handed v.id block) =
        o.notices ++ (o.grants (if w.claims block then w :: rest else rest)).map
          (fun v => Notice.handed v.id block) ∧
      o'.taken + (o'.grants rest).length =
        o.taken + (o.grants (if w.claims block then w :: rest else rest)).length +
          if o.buffer.watches block w then 1 else 0 := by
  dsimp only
  rw [toId_eq h hw]
  by_cases accepts : w.interest.accepts block.name = true
  · rw [if_pos accepts, Offer.toWaiter]
    cases demand : w.demand with
    | once =>
      have claims : w.claims block = true := by simp [Waiter.claims, demand, accepts]
      have blind : o.buffer.watches block w = false := by simp [watches, demand]
      rw [claims, blind]
      have mode := (forget_sameStore o.buffer w.id).bestEffort
      cases best : o.buffer.bestEffort with
      | false => simp [Offer.grants, best, mode]; omega
      | true =>
        cases satisfied : o.satisfied with
        | false => simp [Offer.grants, best, mode, satisfied]
        | true => simp [Offer.grants, best, satisfied]
    | standing limit got =>
      have unclaimed : w.claims block = false := by simp [Waiter.claims, demand]
      rw [unclaimed]
      have mode := (copyTo_sameStore o.buffer block w limit got).bestEffort
      by_cases room : o.buffer.hasRoom w.id = true
      · have sees : o.buffer.watches block w = true := by simp [watches, demand, accepts, room]
        simp [Offer.grants, mode, room, sees]; omega
      · have blind : o.buffer.watches block w = false := by simp [watches, room]
        simp [room, blind]
  · have unclaimed : w.claims block = false := by simp [Waiter.claims, accepts]
    have blind : o.buffer.watches block w = false := by simp [watches, accepts]
    simp [accepts, unclaimed, blind]

theorem next_round {o : Offer} (h : o.buffer.Consistent) (block : Block) {w : Waiter}
    {ws : List Waiter} (waiting : ∀ v ∈ w :: ws, v ∈ o.buffer.pending)
    (distinct : ((w :: ws).map (·.id)).Nodup) :
    (∀ v ∈ ws, v ∈ (o.toId block w.id).buffer.pending) ∧
      ws.filter ((o.toId block w.id).buffer.watches block) =
        ws.filter (o.buffer.watches block) := by
  have others : ∀ v ∈ ws, v.id ≠ w.id := fun v hv same =>
    (List.nodup_cons.mp distinct).1 (List.mem_map.mpr ⟨v, hv, same⟩)
  refine ⟨fun v hv => ?_, List.filter_congr fun v hv => ?_⟩
  · exact mem_toId h (waiting v (List.mem_cons_of_mem _ hv)) (others v hv)
  · rw [watches, watches, hasRoom_toId h (others v hv)]

/-- What is given on the way through a list of waiters. -/
theorem fold_gives {o : Offer} (offering : b.Offering block o) {ws : List Waiter}
    (waiting : ∀ w ∈ ws, w ∈ o.buffer.pending) (distinct : (ws.map (·.id)).Nodup) :
    let o' := (ws.map (·.id)).foldl (Offer.toId block) o
    o'.notices = o.notices ++ (o.grants (ws.filter (Waiter.claims block))).map
        (fun v => Notice.handed v.id block) ∧
      o'.taken = o.taken + (o.grants (ws.filter (Waiter.claims block))).length +
        (ws.filter (o.buffer.watches block)).length := by
  induction ws generalizing o with
  | nil => simp [Offer.grants]
  | cons w ws ih =>
    have hw := waiting w List.mem_cons_self
    obtain ⟨later, watching⟩ := next_round offering.consistent block waiting distinct
    obtain ⟨notices, taken⟩ := ih (toId_offering offering w.id) later distinct.of_cons
    obtain ⟨told, counted⟩ :=
      toId_gives offering.consistent block hw (ws.filter (Waiter.claims block))
    refine ⟨?_, ?_⟩
    · rw [List.map_cons, List.foldl_cons, notices, told]
      rw [List.filter_cons]
    · rw [List.map_cons, List.foldl_cons, taken, counted, watching, List.filter_cons,
        List.filter_cons]
      by_cases sees : o.buffer.watches block w = true
      · simp only [sees, if_true, List.length_cons]
        omega
      · simp [sees]

theorem map_more_zero (block : Block) (feed : Option Feed) :
    feed.map (Feed.more 0 block) = feed := by
  cases feed with
  | none => rfl
  | some feed => rw [Option.map_some, feed.more_zero]

theorem toId_feed? {o : Offer} (h : o.buffer.Consistent) {w : Waiter} (hw : w ∈ o.buffer.pending)
    (block : Block) (id : Nat) : (o.toId block w.id).buffer.feed? id = (o.buffer.feed? id).map
      (Feed.more (if o.buffer.watches block w = true ∧ w.id = id then 1 else 0) block) := by
  rw [toId_eq h hw]
  by_cases accepts : w.interest.accepts block.name = true
  · rw [if_pos accepts, Offer.toWaiter]
    cases demand : w.demand with
    | once =>
      have blind : o.buffer.watches block w = false := by simp [watches, demand]
      have forgotten : (o.buffer.forget w.id).feed? id = o.buffer.feed? id := by
        rw [feed?, forget_feeds, ← feed?]
      simp only [blind, Bool.false_eq_true, false_and, if_false, map_more_zero]
      split
      · rfl
      · exact forgotten
    | standing limit got =>
      by_cases room : o.buffer.hasRoom w.id = true
      · have sees : o.buffer.watches block w = true := by simp [watches, demand, accepts, room]
        simp only [room, if_true, sees, true_and, copyTo_feed?, eq_comm]
      · have blind : o.buffer.watches block w = false := by simp [watches, room]
        simp [room, blind, map_more_zero]
  · have blind : o.buffer.watches block w = false := by simp [watches, accepts]
    simp [accepts, blind, map_more_zero]

theorem fold_feed? {o : Offer} (offering : b.Offering block o) {ws : List Waiter}
    (waiting : ∀ w ∈ ws, w ∈ o.buffer.pending) (distinct : (ws.map (·.id)).Nodup) (id : Nat) :
    ((ws.map (·.id)).foldl (Offer.toId block) o).buffer.feed? id = (o.buffer.feed? id).map
      (Feed.more (((ws.filter (o.buffer.watches block)).map (·.id)).count id) block) := by
  induction ws generalizing o with
  | nil => exact (map_more_zero block _).symm
  | cons w ws ih =>
    obtain ⟨later, watching⟩ := next_round offering.consistent block waiting distinct
    rw [List.map_cons, List.foldl_cons, ih (toId_offering offering w.id) later distinct.of_cons, watching,
      toId_feed? offering.consistent (waiting w List.mem_cons_self) block id, Option.map_map]
    congr 1
    funext feed
    rw [Function.comp_apply, feed.more_more, List.filter_cons]
    by_cases sees : o.buffer.watches block w = true
    · by_cases same : w.id = id
      · simp [sees, same, Nat.add_comm]
      · simp [sees, same]
    · simp [sees]

theorem filter_covering {p : Waiter → Bool}
    (accepts : ∀ w, p w = true → w.interest.accepts block.name = true) (ws : List Waiter) :
    (ws.filter fun w => w.interest.name.isPrefixOf block.name).filter p = ws.filter p := by
  rw [List.filter_filter]
  apply List.filter_congr
  intro w _
  rw [Bool.and_eq_left_iff_imp]
  intro wanted
  exact (Bool.and_eq_true_iff.mp (accepts w wanted)).1

def covering (b : Buffer) (block : Block) : List Waiter :=
  b.pending.filter fun w => w.interest.name.isPrefixOf block.name

theorem covering_waiting (b : Buffer) (block : Block) : ∀ w ∈ b.covering block, w ∈ b.pending :=
  fun _ met => List.mem_of_mem_filter met

theorem covering_watchers (b : Buffer) (block : Block) :
    (b.covering block).filter (b.watches block) = b.watchers block :=
  filter_covering (fun w sees => by simp_all [watches]) b.pending

theorem Orderly.covering_distinct (h : b.Orderly) (block : Block) :
    ((b.covering block).map (·.id)).Nodup :=
  h.consistent.distinct.sublist (List.filter_sublist.map _)

theorem Orderly.offer_eq (h : b.Orderly) (block : Block) : b.offer block =
    ((b.covering block).map (·.id)).foldl (Offer.toId block) ⟨b, 0, false, []⟩ := by
  rw [offer, h.mergeSort_matching, covering]

/-- Exactly those get the block who are to get it. -/
theorem Orderly.offer_gives (h : b.Orderly) (block : Block) :
    (b.offer block).notices = (b.takers block).map (fun v => Notice.handed v.id block) ∧
      (b.offer block).taken = (b.takers block).length + (b.watchers block).length := by
  obtain ⟨notices, taken⟩ := fold_gives (offering_start h.consistent block)
    (b.covering_waiting block) (h.covering_distinct block)
  have claims : (b.covering block).filter (Waiter.claims block) = b.claimants block :=
    filter_covering (fun w claims => (Bool.and_eq_true_iff.mp claims).2) b.pending
  rw [h.offer_eq, notices, taken, claims, covering_watchers]
  simp [Offer.grants, takers]

theorem Orderly.offer_feed? (h : b.Orderly) (block : Block) (id : Nat) :
    (b.offer block).buffer.feed? id =
      (b.feed? id).map (Feed.more (((b.watchers block).map (·.id)).count id) block) := by
  rw [h.offer_eq, fold_feed? (offering_start h.consistent block) (b.covering_waiting block)
    (h.covering_distinct block), covering_watchers]

theorem offer_unwatched (h : b.Consistent) {v : Waiter} (hv : v ∈ b.pending)
    (stands : v.demand ≠ .once) (blind : b.watches block v = false) :
    v ∈ (b.offer block).buffer.pending := by
  refine (offer_preserves (P := fun o => v ∈ o.buffer.pending ∧ o.buffer.watches block v = false)
    h ?_ ⟨hv, blind⟩).1
  rintro o id offering ⟨waits, blind⟩
  by_cases met : v.id = id
  · have passed : o.toId block id = o := by
      rw [← met, toId_eq offering.consistent waits, Offer.toWaiter]
      cases demand : v.demand with
      | once => exact absurd demand stands
      | standing limit got =>
        by_cases accepts : v.interest.accepts block.name = true
        · have full : o.buffer.hasRoom v.id = false := by
            simpa [watches, stands, accepts] using blind
          simp [full]
        · simp [accepts]
    rw [passed]
    exact ⟨waits, blind⟩
  · refine ⟨mem_toId offering.consistent waits met, ?_⟩
    rw [watches, hasRoom_toId offering.consistent met]
    exact blind

theorem requests_ascending (order : b.InOrder) : b.requests.Pairwise fun v w => v.id < w.id :=
  (List.pairwise_map.mp order).sublist List.filter_sublist

theorem claimants_ascending (order : b.InOrder) (block : Block) :
    (b.claimants block).Pairwise fun v w => v.id < w.id :=
  (List.pairwise_map.mp order).sublist List.filter_sublist

theorem mem_requests {w : Waiter} : w ∈ b.requests ↔ w ∈ b.pending ∧ w.demand = .once := by
  simp [requests]

theorem takers_sublist (b : Buffer) (block : Block) :
    (b.takers block).Sublist (b.claimants block) := by
  rw [takers]
  split
  · exact List.take_sublist _ _
  · exact List.Sublist.refl _

theorem mem_claimants {w : Waiter} : w ∈ b.claimants block ↔
    w ∈ b.pending ∧ w.demand = .once ∧ w.interest.accepts block.name = true := by
  simp [claimants, Waiter.claims]

theorem mem_watchers {w : Waiter} : w ∈ b.watchers block ↔
    w ∈ b.pending ∧ w.demand ≠ .once ∧ w.interest.accepts block.name = true ∧
      b.hasRoom w.id = true := by
  simp [watchers, watches]

theorem takers_of_persistent (mode : b.bestEffort = false) (block : Block) :
    b.takers block = b.claimants block := by
  rw [takers, mode, if_neg Bool.false_ne_true]

theorem takers_of_bestEffort (order : b.InOrder) (mode : b.bestEffort = true) {w : Waiter}
    (claims : w ∈ b.claimants block) : ∃ first ∈ b.claimants block, b.takers block = [first] ∧
      ∀ v ∈ b.claimants block, v = first ∨ first.id < v.id := by
  have ascending := claimants_ascending order block
  rw [takers, mode, if_pos rfl]
  cases all : b.claimants block with
  | nil =>
    rw [all] at claims
    contradiction
  | cons first rest =>
    rw [all, List.pairwise_cons] at ascending
    refine ⟨first, List.mem_cons_self, rfl, fun v claims => ?_⟩
    exact (List.mem_cons.mp claims).imp_right (ascending.1 v)

theorem mem_of_mem_takers {w : Waiter} (taker : w ∈ b.takers block) : w ∈ b.claimants block :=
  (b.takers_sublist block).subset taker

theorem Orderly.offer_requests (h : b.Orderly) (block : Block) :
    (b.offer block).buffer.requests = b.requests.filter fun w => w ∉ b.takers block := by
  have offering := offer_offering h.consistent block
  have same (w : Waiter) : w ∈ (b.offer block).buffer.requests ↔
      w ∈ b.requests.filter fun w => w ∉ b.takers block := by
    rw [List.mem_filter, mem_requests, mem_requests]
    by_cases once : w.demand = .once
    · rw [offering.once w once, (h.offer_gives block).1]
      simp only [once, and_true, decide_eq_true_eq, and_congr_right_iff, not_iff_not]
      intro waits
      constructor
      · intro told
        obtain ⟨v, taker, eq⟩ := List.mem_map.mp told
        have waited := List.mem_of_mem_filter (mem_of_mem_takers taker)
        exact same_of_id h.consistent waited waits (Notice.handed.inj eq).1 ▸ taker
      · exact fun taker => List.mem_map.mpr ⟨w, taker, rfl⟩
    · simp [once]
  have after := requests_ascending (h.inOrder.of_sublist (offer_ids h.consistent block))
  have before := (requests_ascending h.inOrder).sublist
    (List.filter_sublist (p := fun w => decide (w ∉ b.takers block)))
  have distinct {l : List Waiter} (ascending : l.Pairwise fun v w => v.id < w.id) : l.Nodup :=
    ascending.imp fun less same => Nat.ne_of_lt less (congrArg Waiter.id same)
  refine List.Perm.eq_of_pairwise (fun v w _ _ less more => absurd less (Nat.lt_asymm more))
    after before ?_
  exact (List.perm_ext_iff_of_nodup (distinct after) (distinct before)).mpr same

theorem Orderly.numbered (h : b.Orderly) (n : Nat) : { b with nextOrder := n }.Orderly :=
  ⟨numbered_consistent h.consistent n, h.tidy, h.inOrder⟩

theorem Orderly.recipients_eq (h : b.Orderly) (block : Block) :
    b.recipients block = (b.takers block).length + (b.watchers block).length :=
  ((h.numbered (b.nextOrder + 1)).offer_gives block).2

theorem Orderly.file_requests (h : b.Orderly) (filed : b.file block = (b', ns)) :
    b'.requests = b.requests.filter fun w => w ∉ b.takers block := by
  rw [file_eq h.consistent] at filed
  obtain ⟨rfl, -⟩ := Prod.mk.inj filed
  exact (h.numbered (b.nextOrder + 1)).offer_requests block

theorem Orderly.file_notices (h : b.Orderly) (filed : b.file block = (b', ns)) :
    ns = (b.takers block).map (fun v => .handed v.id block) ++
      if b.recipients block = 0 then [] else [.claimed] := by
  rw [file_eq h.consistent] at filed
  obtain ⟨-, rfl⟩ := Prod.mk.inj filed
  rw [filingNotices, filingOffer, ((h.numbered (b.nextOrder + 1)).offer_gives block).1]
  rfl

theorem makeRoom_takers (b : Buffer) (name : Name) (block : Block) :
    (b.makeRoom name).takers block = b.takers block := by
  obtain ⟨_, room⟩ := b.makeRoom_eq name
  rw [room]
  rfl

theorem makeRoom_watchers (b : Buffer) (name : Name) (block : Block) :
    (b.makeRoom name).watchers block = b.watchers block := by
  obtain ⟨_, room⟩ := b.makeRoom_eq name
  rw [room]
  rfl

theorem Orderly.stored (h : b.Orderly) (tried : b.tryInsert block = .filed b' ns) :
    b'.entries.find? block.name =
      some ⟨block, b.nextOrder, (b.takers block).length + (b.watchers block).length⟩ := by
  obtain ⟨-, -, -, filed⟩ := tryInsert_filed tried
  have orderly := h.makeRoom block.name
  rw [(file_filed orderly.consistent filed).entries, Table.find?_insert, if_pos rfl, newEntry,
    orderly.recipients_eq, makeRoom_nextOrder, makeRoom_takers, makeRoom_watchers]

theorem Orderly.handed_iff (h : b.Orderly) (tried : b.tryInsert block = .filed b' ns) {id : Nat} :
    .handed id block ∈ ns ↔ ∃ w ∈ b.takers block, w.id = id := by
  obtain ⟨-, -, -, filed⟩ := tryInsert_filed tried
  rw [(h.makeRoom block.name).file_notices filed, makeRoom_takers, List.mem_append, List.mem_map]
  constructor
  · rintro (⟨w, taker, same⟩ | claimed)
    · exact ⟨w, taker, (Notice.handed.inj same).1⟩
    · split at claimed
      · contradiction
      · cases List.mem_singleton.mp claimed
  · rintro ⟨w, taker, rfl⟩
    exact .inl ⟨w, taker, rfl⟩

theorem Orderly.filed_offer (h : b.Orderly) (tried : b.tryInsert block = .filed b' ns) :
    ∃ entries stored, ({ b with entries, nextOrder := b.nextOrder + 1 } : Buffer).Orderly ∧
      b' = { (({ b with entries, nextOrder := b.nextOrder + 1 } : Buffer).offer block).buffer with
        entries := stored } := by
  obtain ⟨-, -, -, filed⟩ := tryInsert_filed tried
  have orderly := h.makeRoom block.name
  have room := b.makeRoom_nextOrder block.name
  rw [file_eq orderly.consistent, filingOffer, room] at filed
  have numbered := orderly.numbered (b.nextOrder + 1)
  obtain ⟨entries, eq⟩ := b.makeRoom_eq block.name
  rw [eq] at filed numbered
  exact ⟨entries, _, numbered, (Prod.mk.inj filed).1.symm⟩

theorem Orderly.filed_feed? (h : b.Orderly) (tried : b.tryInsert block = .filed b' ns)
    (id : Nat) : b'.feed? id =
      (b.feed? id).map (Feed.more (((b.watchers block).map (·.id)).count id) block) := by
  obtain ⟨entries, stored, orderly, rfl⟩ := h.filed_offer tried
  exact orderly.offer_feed? block id

theorem Orderly.filed_watched (h : b.Orderly) (tried : b.tryInsert block = .filed b' ns)
    {w : Waiter} (watcher : w ∈ b.watchers block) {feed : Feed}
    (found : b.feed? w.id = some feed) :
    b'.feed? w.id = some { feed with queue := feed.queue ++ [block] } := by
  have distinct : ((b.watchers block).map (·.id)).Nodup :=
    h.consistent.distinct.sublist (List.filter_sublist.map _)
  rw [h.filed_feed? tried, found,
    List.count_eq_one_of_mem distinct (List.mem_map_of_mem watcher)]
  rfl

theorem Orderly.filed_unfed (h : b.Orderly) (tried : b.tryInsert block = .filed b' ns)
    {w : Waiter} (hw : w ∈ b.pending) (other : w ∉ b.watchers block) :
    b'.feed? w.id = b.feed? w.id := by
  have absent : w.id ∉ (b.watchers block).map (·.id) := by
    intro listed
    obtain ⟨v, watcher, same⟩ := List.mem_map.mp listed
    exact other (same_of_id h.consistent (List.mem_of_mem_filter watcher) hw same ▸ watcher)
  rw [h.filed_feed? tried, List.count_eq_zero_of_not_mem absent, map_more_zero]

theorem Orderly.filed_unwatched (h : b.Orderly) (tried : b.tryInsert block = .filed b' ns)
    {v : Waiter} (hv : v ∈ b.pending) (stands : v.demand ≠ .once)
    (blind : b.watches block v = false) : v ∈ b'.pending := by
  obtain ⟨entries, stored, orderly, rfl⟩ := h.filed_offer tried
  exact offer_unwatched orderly.consistent hv stands blind

theorem Orderly.phase_of_filed (h : b.Orderly) (tried : b.tryInsert block = .filed b' ns) :
    b'.phase = .accepting := by
  obtain ⟨phase, -, -, filed⟩ := tryInsert_filed tried
  obtain ⟨_, room⟩ := b.makeRoom_eq block.name
  rw [(file_filed (h.makeRoom _).consistent filed).phase, room]
  exact phase

theorem Attended.mem_watchers {subs : List Subscription} {x : Subscription} (h : b.Attended subs)
    (going : b.phase ≠ .closed) (hx : x ∈ subs) (block : Block) : x.id ∈ (b.watchers block).map (·.id) ↔
      x.interest.accepts block.name = true ∧
        (b.queue x.id).length < max b.config.filterQueue 1 ∧ b.exhausted x = false := by
  obtain ⟨feed, found⟩ := h.feed? hx
  have room : b.hasRoom x.id = true ↔ (b.queue x.id).length < max b.config.filterQueue 1 := by
    rw [hasRoom_iff found, queue_of_feed? found]
  rw [← room, List.mem_map]
  constructor
  · rintro ⟨w, watcher, same⟩
    obtain ⟨waits, stands, accepts, roomy⟩ := Buffer.mem_watchers.mp watcher
    obtain ⟨y, hy, still, rfl⟩ := (h.standing going w stands).mp waits
    obtain rfl := h.same hy hx same
    exact ⟨accepts, roomy, still⟩
  · rintro ⟨accepts, roomy, still⟩
    have stands : (b.registration x).demand ≠ .once := nofun
    have waits := (h.standing going _ stands).mpr ⟨x, hx, still, rfl⟩
    exact ⟨_, Buffer.mem_watchers.mpr ⟨waits, stands, accepts, roomy⟩, rfl⟩

theorem Orderly.filed_takes {id : Nat} (h : b.Orderly) (tried : b.tryInsert block = .filed b' ns)
    (watches : id ∈ (b.watchers block).map (·.id)) : b'.queue id = b.queue id ++ [block] := by
  obtain ⟨w, watcher, rfl⟩ := List.mem_map.mp watches
  obtain ⟨-, -, -, room⟩ := Buffer.mem_watchers.mp watcher
  cases found : b.feed? w.id with
  | none => simp [hasRoom, found] at room
  | some feed => rw [queue_of_feed? (h.filed_watched tried watcher found), queue_of_feed? found]

theorem Orderly.filed_passes {id : Nat} (h : b.Orderly) (tried : b.tryInsert block = .filed b' ns)
    (blind : id ∉ (b.watchers block).map (·.id)) : b'.queue id = b.queue id := by
  rw [queue, h.filed_feed? tried, List.count_eq_zero_of_not_mem blind, map_more_zero, queue]

end Buffer

end NamedContent
