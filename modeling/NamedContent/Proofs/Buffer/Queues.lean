import Mathlib
import NamedContent.Proofs.Buffer.Waiters

/-!
# The unread blocks of the filters

A read takes the oldest block from the queue of a filter, and leaves the queues of the
others as they are. A filter that is dropped takes its queue along.
-/

set_option autoImplicit false

namespace NamedContent.Buffer

variable {b b' : Buffer} {block : Block} {id other : Nat} {feed : Feed}

def queue (b : Buffer) (id : Nat) : List Block := ((b.feed? id).map (·.queue)).getD []

def queued (b : Buffer) (id : Nat) : Nat := ((b.feed? id).map (·.queue.length)).getD 0

theorem queue_of_feed? (found : b.feed? id = some feed) : b.queue id = feed.queue := by
  rw [queue, found]
  rfl

theorem length_queue (b : Buffer) (id : Nat) : (b.queue id).length = b.queued id := by
  rw [queue, queued]
  cases b.feed? id <;> rfl

theorem queue_congr (feeds : b'.feeds = b.feeds) : b'.queue = b.queue := by
  funext id
  rw [queue, queue, feed?, feed?, feeds]

theorem feed?_eq_none_iff : b.feed? id = none ↔ id ∉ b.feeds.map (·.id) := by
  simp [feed?]

theorem feed?_map (b : Buffer) (g : Feed → Feed) (kept : ∀ f, (g f).id = f.id) (id : Nat) :
    { b with feeds := b.feeds.map g }.feed? id = (b.feed? id).map g := by
  simp only [Buffer.feed?, List.find?_map, Function.comp_def, kept]

theorem readFeed_nil (found : b.feed? id = some feed) (empty : b.queue id = []) :
    b.readFeed id = (b, if (b.waiter? id).isSome then .waiting else .ended) := by
  rw [queue_of_feed? found] at empty
  rw [readFeed, found]
  simp only [empty]

def withQueue (b : Buffer) (id : Nat) (queue : List Block) : Buffer :=
  { b with feeds := b.feeds.map fun f => if f.id = id then { f with queue } else f }

theorem queue_withQueue (b : Buffer) (id other : Nat) (queue : List Block) :
    (b.withQueue id queue).queue other =
      if other = id ∧ (b.feed? id).isSome then queue else b.queue other := by
  have still : (b.withQueue id queue).feed? other = (b.feed? other).map fun f =>
      if f.id = id then { f with queue } else f :=
    feed?_map b _ (fun f => by split <;> rfl) other
  rw [Buffer.queue, still, Buffer.queue]
  cases found : b.feed? other with
  | none =>
    have absent : ¬(other = id ∧ (b.feed? id).isSome) := by
      rintro ⟨rfl, there⟩
      rw [found] at there
      contradiction
    rw [if_neg absent]
    rfl
  | some f =>
    have this : f.id = other := by simpa using List.find?_some found
    by_cases same : other = id
    · subst same
      simp [this, found]
    · simp [this, same]

theorem readFeed_block {rest : List Block} (found : b.feed? id = some feed)
    (unread : feed.queue = block :: rest) : b.readFeed id = (b.withQueue id rest, .block block) := by
  rw [readFeed, found]
  simp only [unread]
  rfl

theorem readFeed_other (apart : id ≠ other) : (b.readFeed other).1.queue id = b.queue id := by
  cases found : b.feed? other with
  | none => rw [readFeed, found]
  | some f =>
    cases unread : f.queue with
    | nil => rw [readFeed_nil found (queue_of_feed? found ▸ unread)]
    | cons block rest =>
      rw [readFeed_block found unread, queue_withQueue, if_neg fun same => apart same.1]

theorem readFeed_cons {rest : List Block} (unread : b.queue id = block :: rest) :
    (b.readFeed id).2 = .block block ∧ (b.readFeed id).1.queue id = rest := by
  cases found : b.feed? id with
  | none =>
    rw [queue, found] at unread
    contradiction
  | some f =>
    rw [queue_of_feed? found] at unread
    rw [readFeed_block found unread, queue_withQueue, found]
    exact ⟨rfl, if_pos ⟨rfl, rfl⟩⟩

@[simp] theorem forget_feeds (b : Buffer) (id : Nat) : (b.forget id).feeds = b.feeds := by
  obtain ⟨_, eq⟩ := b.forget_eq id
  rw [eq]

theorem dropFeed_other (apart : id ≠ other) : (b.dropFeed other).queue id = b.queue id := by
  have feeds : (b.dropFeed other).feed? id = b.feed? id := by
    rw [dropFeed, feed?, feed?, forget_feeds, List.find?_filter]
    congr 1
    funext f
    by_cases same : f.id = id
    · simp [same, apart]
    · simp [same]
  rw [queue, queue, feeds]

theorem dropFeed_feed? (b : Buffer) (id : Nat) : (b.dropFeed id).feed? id = none := by
  rw [dropFeed, feed?, List.find?_filter]
  simp

end NamedContent.Buffer
