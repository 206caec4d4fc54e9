import Mathlib
import NamedContent.Proofs.Buffer.Queues
import NamedContent.Proofs.Buffer.Registry

/-!
# The filters among the waiters

The standing waiters are the open filters that have not come to their limits. A
filter counts what is put into its feed, and that is what has been read from
the feed and what is still in it.
-/

set_option autoImplicit false

namespace NamedContent

/-- An open filter as its holder knows it, with the number of blocks read from it. -/
structure Subscription where
  id : Nat
  interest : Interest
  limit : Option Nat
  read : Nat
  deriving DecidableEq, Repr

def Subscription.afterRead (id : Nat) (x : Subscription) : Subscription :=
  if x.id = id then { x with read := x.read + 1 } else x

@[simp] theorem Subscription.afterRead_id (id : Nat) (x : Subscription) :
    (x.afterRead id).id = x.id := by
  unfold afterRead
  split <;> rfl

@[simp] theorem Subscription.afterRead_interest (id : Nat) (x : Subscription) :
    (x.afterRead id).interest = x.interest := by
  unfold afterRead
  split <;> rfl

@[simp] theorem Subscription.afterRead_limit (id : Nat) (x : Subscription) :
    (x.afterRead id).limit = x.limit := by
  unfold afterRead
  split <;> rfl

namespace Buffer

variable {b b' : Buffer} {ns : List Notice}

def received (b : Buffer) (x : Subscription) : Nat := x.read + b.queued x.id

/-- The filter has received the block with which it comes to its limit. A limit
of none is reached with the first block. -/
def exhausted (b : Buffer) (x : Subscription) : Bool :=
  x.limit.any fun limit => max limit 1 ≤ b.received x

def registration (b : Buffer) (x : Subscription) : Waiter :=
  ⟨x.id, x.interest, .standing x.limit (b.received x)⟩

/-- The standing waiters are the filters that are open and not exhausted. -/
structure Attended (b : Buffer) (subs : List Subscription) : Prop where
  feeds : b.feeds.map (·.id) = subs.map (·.id)
  distinct : (subs.map (·.id)).Nodup
  issued : ∀ x ∈ subs, x.id < b.nextId
  standing : b.phase ≠ .closed → ∀ w : Waiter, w.demand ≠ .once →
    (w ∈ b.pending ↔ ∃ x ∈ subs, b.exhausted x = false ∧ w = b.registration x)

variable {subs : List Subscription}

theorem ofConfig_attended (config : Config) : (ofConfig config).Attended [] where
  feeds := rfl
  distinct := List.nodup_nil
  issued := by simp
  standing := by simp [ofConfig]

theorem Attended.same (h : b.Attended subs) {x y : Subscription} (hx : x ∈ subs) (hy : y ∈ subs)
    (same : x.id = y.id) : x = y := List.inj_on_of_nodup_map h.distinct hx hy same

theorem Attended.feed? (h : b.Attended subs) {x : Subscription} (hx : x ∈ subs) :
    ∃ f, b.feed? x.id = some f := by
  have listed : x.id ∈ b.feeds.map (·.id) := h.feeds ▸ List.mem_map_of_mem hx
  obtain ⟨f, hf, same⟩ := List.mem_map.mp listed
  apply Option.isSome_iff_exists.mp
  rw [Buffer.feed?, List.find?_isSome]
  exact ⟨f, hf, by simpa using same⟩

theorem received_congr (feeds : b'.feeds = b.feeds) : b'.received = b.received := by
  funext x
  rw [received, received, queued, queued, feed?, feed?, feeds]

theorem Attended.aside (h : b.Attended subs) (feeds : b'.feeds = b.feeds)
    (nextId : b.nextId ≤ b'.nextId)
    (standing : b'.phase ≠ .closed → b.phase ≠ .closed ∧
      ∀ w : Waiter, w.demand ≠ .once → (w ∈ b'.pending ↔ w ∈ b.pending)) : b'.Attended subs where
  feeds := feeds ▸ h.feeds
  distinct := h.distinct
  issued := fun x hx => (h.issued x hx).trans_le nextId
  standing := by
    intro phase w stands
    obtain ⟨before, same⟩ := standing phase
    rw [same w stands, h.standing before w stands]
    simp only [exhausted, registration, received_congr feeds]

theorem Attended.of_same (h : b.Attended subs) (feeds : b'.feeds = b.feeds)
    (nextId : b'.nextId = b.nextId) (phase : b'.phase = b.phase)
    (pending : b'.pending = b.pending) : b'.Attended subs :=
  h.aside feeds nextId.ge fun still => ⟨phase ▸ still, fun _ _ => pending ▸ Iff.rfl⟩

theorem Attended.forget (h : b.Attended subs) {id : Nat}
    (other : b.phase ≠ .closed → ∀ w ∈ b.pending, w.demand ≠ .once → w.id ≠ id) :
    (b.forget id).Attended subs := by
  refine h.aside (forget_feeds b id) (forget_nextId b id).ge fun phase => ?_
  rw [(forget_sameStore b id).phase] at phase
  refine ⟨phase, fun w stands => ?_⟩
  rw [mem_forget_pending]
  exact ⟨And.left, fun hw => ⟨hw, other phase w hw stands⟩⟩

theorem Attended.forget_other (h : b.Attended subs) {id : Nat} (other : ∀ x ∈ subs, x.id ≠ id) :
    (b.forget id).Attended subs := by
  refine h.forget fun phase w hw stands same => ?_
  obtain ⟨x, hx, -, rfl⟩ := (h.standing phase w stands).mp hw
  exact other x hx same

theorem shut_attended (h : b.Attended subs) : b.shut.Attended subs :=
  h.aside rfl (Nat.le_refl _) fun phase => absurd rfl phase

theorem enroll_attended (h : b.Attended subs) (interest : Interest) :
    (b.enroll interest .once).Attended subs := by
  refine h.aside rfl (Nat.le_succ _) fun phase => ⟨phase, fun w stands => ?_⟩
  refine ⟨fun hw => (List.mem_append.mp hw).resolve_right fun new => stands ?_,
    fun hw => List.mem_append_left _ hw⟩
  rw [List.mem_singleton.mp new]

section Copy

variable {block : Block} {w : Waiter} {limit : Option Nat} {got : Nat}

theorem queued_copied (id : Nat) (feed : Feed) (found : b.feed? id = some feed) :
    (b.copied block w limit got).queued id = b.queued id + if id = w.id then 1 else 0 := by
  have feeds : (b.copied block w limit got).feed? id = (b.feed? id).map fun f =>
      if f.id = w.id then { f with queue := f.queue ++ [block] } else f :=
    feed?_map b _ (fun f => by split <;> rfl) id
  have this : feed.id = id := by simpa using List.find?_some found
  rw [queued, queued, feeds, found, Option.map_some, Option.map_some, this]
  by_cases same : id = w.id
  · simp [same]
  · simp [same]

theorem mem_copied (h : b.Consistent) (hw : w ∈ b.pending) {v : Waiter} :
    v ∈ (b.copied block w limit got).pending ↔
      v = { w with demand := .standing limit (got + 1) } ∨ v ∈ b.pending ∧ v.id ≠ w.id := by
  rw [copied, List.mem_map]
  constructor
  · intro found
    obtain ⟨u, hu, rfl⟩ := found
    by_cases same : u.id = w.id
    · rw [if_pos same, same_of_id h hu hw same]
      exact .inl rfl
    · rw [if_neg same]
      exact .inr ⟨hu, same⟩
  · rintro (rfl | ⟨hv, other⟩)
    · exact ⟨w, hw, if_pos rfl⟩
    · exact ⟨v, hv, if_neg other⟩

theorem copyTo_eq (b : Buffer) (block : Block) (w : Waiter) (limit : Option Nat) (got : Nat) :
    b.copyTo block w limit got =
      if limit.any (fun limit => limit ≤ got + 1) then (b.copied block w limit got).forget w.id
      else b.copied block w limit got := by
  cases limit with
  | none => rfl
  | some limit =>
    by_cases full : limit ≤ got + 1
    · simp [Buffer.copyTo, copied, full]
    · simp [Buffer.copyTo, copied, full]

variable {x y : Subscription}

def copiedFor (b : Buffer) (block : Block) (x : Subscription) : Buffer :=
  b.copied block (b.registration x) x.limit (b.received x)

theorem Attended.received_copiedFor (h : b.Attended subs) (block : Block) (hx : x ∈ subs)
    (hy : y ∈ subs) :
    (b.copiedFor block x).received y = b.received y + if y = x then 1 else 0 := by
  obtain ⟨feed, found⟩ := h.feed? hy
  have same : y.id = x.id ↔ y = x := ⟨h.same hy hx, congrArg _⟩
  have queued : (b.copiedFor block x).queued y.id = b.queued y.id + if y.id = x.id then 1 else 0 :=
    queued_copied y.id feed found
  rw [received, received, queued, ← Nat.add_assoc]
  simp only [same]

theorem Attended.exhausted_copiedFor (h : b.Attended subs) (block : Block) (hx : x ∈ subs) :
    (b.copiedFor block x).exhausted x =
      x.limit.any fun limit => limit ≤ b.received x + 1 := by
  rw [exhausted, h.received_copiedFor block hx hx, if_pos rfl]
  congr 1
  funext limit
  rw [decide_eq_decide]
  omega

theorem Attended.mem_copiedFor (h : b.Attended subs) (block : Block) (consistent : b.Consistent)
    (phase : b.phase ≠ .closed) (hx : x ∈ subs) (hw : b.registration x ∈ b.pending) {v : Waiter}
    (stands : v.demand ≠ .once) : v ∈ (b.copiedFor block x).pending ↔
      v = (b.copiedFor block x).registration x ∨ ∃ y ∈ subs, y.id ≠ x.id ∧
        (b.copiedFor block x).exhausted y = false ∧ v = (b.copiedFor block x).registration y := by
  have others {y : Subscription} (hy : y ∈ subs) (other : y.id ≠ x.id) :
      (b.copiedFor block x).received y = b.received y := by
    rw [h.received_copiedFor block hx hy, if_neg fun same => other (congrArg _ same), Nat.add_zero]
  have this : (b.copiedFor block x).registration x =
      { b.registration x with demand := .standing x.limit (b.received x + 1) } := by
    rw [registration, h.received_copiedFor block hx hx, if_pos rfl, registration]
  rw [copiedFor, mem_copied consistent hw, ← copiedFor, this]
  refine or_congr_right ?_
  constructor
  · rintro ⟨hv, other⟩
    obtain ⟨y, hy, going, rfl⟩ := (h.standing phase v stands).mp hv
    refine ⟨y, hy, other, ?_, ?_⟩
    · rwa [exhausted, others hy other]
    · rw [registration, registration, others hy other]
  · rintro ⟨y, hy, other, going, rfl⟩
    rw [registration, others hy other] at stands ⊢
    rw [exhausted, others hy other] at going
    exact ⟨(h.standing phase _ stands).mpr ⟨y, hy, going, rfl⟩, other⟩

theorem Attended.copyTo (h : b.Attended subs) (block : Block) (consistent : b.Consistent)
    (phase : b.phase ≠ .closed) {w : Waiter} (hw : w ∈ b.pending) {limit : Option Nat} {got : Nat}
    (demand : w.demand = .standing limit got) : (b.copyTo block w limit got).Attended subs := by
  obtain ⟨x, hx, going, rfl⟩ := (h.standing phase w (by rw [demand]; exact nofun)).mp hw
  obtain ⟨rfl, rfl⟩ := Demand.standing.inj demand
  have table {v : Waiter} (stands : v.demand ≠ .once) :=
    h.mem_copiedFor block consistent phase hx hw stands
  have feeds : (b.copiedFor block x).feeds.map (·.id) = subs.map (·.id) := by
    rw [← h.feeds, copiedFor, copied, List.map_map]
    refine List.map_congr_left fun f _ => ?_
    show (if f.id = x.id then { f with queue := f.queue ++ [block] } else f).id = f.id
    split <;> rfl
  rw [copyTo_eq, ← h.exhausted_copiedFor block hx, ← copiedFor]
  cases done : (b.copiedFor block x).exhausted x with
  | false =>
    rw [if_neg Bool.false_ne_true]
    refine ⟨feeds, h.distinct, h.issued, fun _ v stands => (table stands).trans ?_⟩
    constructor
    · rintro (rfl | ⟨y, hy, -, going, rfl⟩)
      · exact ⟨x, hx, done, rfl⟩
      · exact ⟨y, hy, going, rfl⟩
    · rintro ⟨y, hy, going, rfl⟩
      by_cases same : y = x
      · exact .inl (by rw [same])
      · exact .inr ⟨y, hy, fun id => same (h.same hy hx id), going, rfl⟩
  | true =>
    rw [if_pos rfl]
    refine ⟨?_, h.distinct, ?_, fun _ v stands => ?_⟩
    · rw [forget_feeds]
      exact feeds
    · rw [forget_nextId]
      exact h.issued
    · rw [mem_forget_pending, table stands]
      simp only [exhausted, registration, received_congr (forget_feeds (b.copiedFor block x) _)]
      constructor
      · rintro ⟨rfl | ⟨y, hy, -, going, rfl⟩, other⟩
        · exact absurd rfl other
        · exact ⟨y, hy, going, rfl⟩
      · rintro ⟨y, hy, going, rfl⟩
        have other : y.id ≠ x.id := by
          intro id
          rw [h.same hy hx id] at going
          exact absurd (going.symm.trans done) Bool.false_ne_true
        exact ⟨.inr ⟨y, hy, other, going, rfl⟩, other⟩

end Copy

theorem offer_attended (h : b.Attended subs) (block : Block) (consistent : b.Consistent)
    (phase : b.phase ≠ .closed) : (b.offer block).buffer.Attended subs := by
  refine offer_preserves (P := fun o => o.buffer.Attended subs) consistent ?_ h
  intro o id offering attended
  obtain ⟨same, -⟩ | ⟨w, hw, -, once, -, -, served⟩ | ⟨w, hw, -, limit, got, demand, copied⟩ :=
    toId_cases offering.consistent block id
  · rwa [same]
  · rw [served]
    refine attended.forget fun _ v hv stands same => stands ?_
    rw [same_of_id offering.consistent hv hw same, once]
  · rw [copied]
    exact attended.copyTo block offering.consistent (offering.store.phase ▸ phase) hw demand

theorem file_attended (h : b.Attended subs) {block : Block} (consistent : b.Consistent)
    (phase : b.phase ≠ .closed) (filed : b.file block = (b', ns)) : b'.Attended subs := by
  rw [file_eq consistent] at filed
  obtain ⟨rfl, -⟩ := Prod.mk.inj filed
  have numbered : { b with nextOrder := b.nextOrder + 1 }.Attended subs := h.of_same rfl rfl rfl rfl
  exact (offer_attended numbered block (numbered_consistent consistent _) phase).of_same
    rfl rfl rfl rfl

def opened (b : Buffer) (interest : Interest) (limit : Option Nat) : Buffer :=
  { b.enroll interest (.standing limit 0) with feeds := b.feeds ++ [⟨b.nextId, []⟩] }

theorem opened_queue {id : Nat} (interest : Interest) (limit : Option Nat) (apart : id ≠ b.nextId) :
    (b.opened interest limit).queue id = b.queue id := by
  have feeds : (b.opened interest limit).feed? id = b.feed? id := by
    rw [opened, feed?, feed?, List.find?_append]
    simp [apart.symm]
  rw [queue, queue, feeds]

theorem Attended.received_opened (h : b.Attended subs) (interest : Interest) (limit : Option Nat)
    {x : Subscription} (hx : x ∈ subs) : (b.opened interest limit).received x = b.received x := by
  rw [received, received, ← length_queue, ← length_queue,
    opened_queue interest limit (h.issued x hx).ne]

theorem Attended.received_new (h : b.Attended subs) (interest : Interest) (limit : Option Nat) :
    (b.opened interest limit).received ⟨b.nextId, interest, limit, 0⟩ = 0 := by
  have unknown : b.feeds.find? (fun f => f.id = b.nextId) = none := by
    rw [List.find?_eq_none]
    intro f hf same
    have listed : f.id ∈ subs.map (·.id) := h.feeds ▸ List.mem_map_of_mem hf
    obtain ⟨x, hx, eq⟩ := List.mem_map.mp listed
    have below := h.issued x hx
    rw [decide_eq_true_eq] at same
    omega
  simp [received, queued, Buffer.feed?, opened, List.find?_append, unknown]

theorem subscribe_attended (h : b.Attended subs) {interest : Interest} {limit : Option Nat}
    (subscribed : b.subscribe? interest limit = some b') :
    b'.Attended (subs ++ [⟨b.nextId, interest, limit, 0⟩]) := by
  obtain ⟨phase, rfl⟩ := subscribe?_eq_some subscribed
  have fresh (x : Subscription) (hx : x ∈ subs) : x.id ≠ b.nextId := (h.issued x hx).ne
  have new := h.received_new interest limit
  constructor
  case feeds => simp [h.feeds]
  case distinct =>
    rw [List.map_append]
    refine h.distinct.append (List.nodup_singleton _) ?_
    intro id old new
    obtain ⟨x, hx, rfl⟩ := List.mem_map.mp old
    exact fresh x hx (List.mem_singleton.mp new)
  case issued =>
    intro x hx
    rcases List.mem_append.mp hx with old | new
    · exact (h.issued x old).trans (Nat.lt_succ_self _)
    · rw [List.mem_singleton.mp new]
      exact Nat.lt_succ_self _
  case standing =>
    rw [← opened]
    intro _ w stands
    show w ∈ b.pending ++ [⟨b.nextId, interest, .standing limit 0⟩] ↔ _
    rw [List.mem_append, h.standing phase w stands, List.mem_singleton]
    simp only [List.mem_append, List.mem_singleton, or_and_right, exists_or, exists_eq_left]
    refine or_congr (exists_congr fun x => and_congr_right fun hx => ?_) ?_
    · rw [exhausted, exhausted, registration, registration, h.received_opened interest limit hx]
    · have going : (b.opened interest limit).exhausted ⟨b.nextId, interest, limit, 0⟩ = false := by
        cases limit <;> simp [exhausted, new]
      rw [going, registration, new]
      simp

theorem received_afterRead {id : Nat} {feed : Feed} {block : Block} {rest : List Block}
    (found : b.feed? id = some feed) (queue : feed.queue = block :: rest) (x : Subscription) :
    (b.withQueue id rest).received (x.afterRead id) = b.received x := by
  have unread : b.queue id = block :: rest := (queue_of_feed? found).trans queue
  rw [received, received, ← length_queue, ← length_queue, Subscription.afterRead_id, queue_withQueue,
    Subscription.afterRead]
  by_cases same : x.id = id
  · rw [if_pos same, if_pos ⟨same, by rw [found]; rfl⟩, same, unread, List.length_cons]
    dsimp only
    omega
  · rw [if_neg same, if_neg fun this => same this.1]

theorem read_attended (h : b.Attended subs) {id : Nat} {feed : Feed} {block : Block}
    {rest : List Block} (found : b.feed? id = some feed) (queue : feed.queue = block :: rest) :
    (b.withQueue id rest).Attended (subs.map (·.afterRead id)) := by
  have ids : (subs.map (·.afterRead id)).map (·.id) = subs.map (·.id) := by
    simp [List.map_map, Function.comp_def]
  constructor
  case feeds =>
    rw [ids, ← h.feeds, withQueue, List.map_map]
    refine List.map_congr_left fun f _ => ?_
    show (if f.id = id then { f with queue := rest } else f).id = f.id
    split <;> rfl
  case distinct => exact ids ▸ h.distinct
  case issued =>
    intro y hy
    obtain ⟨x, hx, rfl⟩ := List.mem_map.mp hy
    rw [Subscription.afterRead_id]
    exact h.issued x hx
  case standing =>
    intro phase w stands
    refine (h.standing phase w stands).trans ?_
    simp only [List.mem_map, exists_exists_and_eq_and, exhausted, registration,
      received_afterRead found queue, Subscription.afterRead_id, Subscription.afterRead_interest,
      Subscription.afterRead_limit]

theorem dropFeed_attended (h : b.Attended subs) (id : Nat) :
    (b.dropFeed id).Attended (subs.filter fun x => x.id ≠ id) := by
  have left {x : Subscription} (hx : x.id ≠ id) : (b.dropFeed id).received x = b.received x := by
    rw [received, received, ← length_queue, ← length_queue, dropFeed_other hx]
  constructor
  case feeds =>
    show (List.filter _ (b.forget id).feeds).map _ = _
    rw [forget_feeds]
    have filtered := congrArg (List.filter fun other => other ≠ id) h.feeds
    rwa [List.filter_map, List.filter_map] at filtered
  case distinct => exact h.distinct.sublist (List.filter_sublist.map _)
  case issued =>
    intro x hx
    exact (h.issued x (List.mem_of_mem_filter hx)).trans_eq (forget_nextId b id).symm
  case standing =>
    intro phase w stands
    have before : b.phase ≠ .closed := by rwa [← (forget_sameStore b id).phase]
    show w ∈ (b.forget id).pending ↔ _
    rw [mem_forget_pending, h.standing before w stands]
    simp only [List.mem_filter, decide_eq_true_eq]
    constructor
    · rintro ⟨⟨x, hx, going, rfl⟩, other⟩
      refine ⟨x, ⟨hx, other⟩, ?_, ?_⟩
      · rwa [exhausted, left other]
      · rw [registration, registration, left other]
    · rintro ⟨x, ⟨hx, other⟩, going, rfl⟩
      rw [exhausted, left other] at going
      exact ⟨⟨x, hx, going, by rw [registration, registration, left other]⟩, other⟩

end Buffer

end NamedContent
