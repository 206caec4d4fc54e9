import Mathlib
import NamedContent.Proofs.Traffic.Feeding
import NamedContent.Proofs.Traffic.Parting

/-!
# What a subscription brings

A filter without a limit is a log of what is put: its holder reads the blocks of
interest in the order in which they are put, and misses those that come while its queue
is full. With a limit it takes no more than so many, and leaves the table of waiters
with the last of them. But it comes to its limit only by taking a block, so a limit of
none lets one through.
-/

set_option autoImplicit false

namespace NamedContent.Traffic

variable {κ : Type} [DecidableEq κ] {t : Traffic κ} {m : Move κ} {subs : List Subscription}
  {id : Nat} {ms : List (Move κ)}

theorem step_subscribe (going : t.buffer.phase ≠ .closed) (interest : Interest)
    (limit : Option Nat) : t.step (.subscribe interest limit) =
      t.finish (t.buffer.opened interest limit) [] (.ok (.registered t.buffer.nextId)) := by
  rw [step, Buffer.subscribe?, if_neg going]
  rfl

theorem subscribe_opens (h : t.Following subs) (going : t.buffer.phase ≠ .closed)
    (interest : Interest) (limit : Option Nat) :
    (t.step (.subscribe interest limit)).answer = some (.ok (.registered t.buffer.nextId)) ∧
      ∃ subs', (t.step (.subscribe interest limit)).traffic.Following subs' ∧
        ⟨t.buffer.nextId, interest, limit, 0⟩ ∈ subs' ∧
        (t.step (.subscribe interest limit)).traffic.buffer.received
          ⟨t.buffer.nextId, interest, limit, 0⟩ = 0 ∧
        (t.step (.subscribe interest limit)).traffic.buffer.queue t.buffer.nextId = [] := by
  have following := h.next (.subscribe interest limit)
  rw [step_subscribe going] at following ⊢
  have new : (t.buffer.opened interest limit).received ⟨t.buffer.nextId, interest, limit, 0⟩ = 0 :=
    h.attended.received_new interest limit
  refine ⟨rfl, _, following, List.mem_append_right _ (List.mem_singleton.mpr rfl), new, ?_⟩
  have unread : (t.buffer.opened interest limit).queued t.buffer.nextId = 0 :=
    (Nat.zero_add _).symm.trans new
  rw [← Buffer.length_queue] at unread
  exact List.eq_nil_of_length_eq_zero unread

theorem subscribed_config (config : Buffer.Config) (past : List (Move κ)) (interest : Interest)
    (limit : Option Nat) : (((ofConfig config).run past).step
      (.subscribe interest limit)).traffic.buffer.config = config := by
  have onwards := run_append (ofConfig config) past [.subscribe interest limit]
  have config := run_config config (past ++ [.subscribe interest limit])
  rwa [onwards] at config

/-- For as long as it is open, a filter without a limit is a log of what is put: the
blocks that its holder has read, followed by those in its queue, are those of interest
that have been put since, in this order, but for those that came while the queue was
full. After the end, by a limit or as the buffer is closed, the holder of a filter reads
what is left in the queue, and then that nothing more will come. -/
theorem subscription_faithful (config : Buffer.Config) (past : List (Move κ)) (interest : Interest) :
    let t := (ofConfig config).run past
    let id := t.buffer.nextId
    t.buffer.phase ≠ .closed →
      (∀ limit, (t.step (.subscribe interest limit)).answer = some (.ok (.registered id))) ∧
      (∀ ms, (∀ m ∈ ms, m ≠ .unsubscribe id) →
        let start := (t.step (.subscribe interest none)).traffic
        start.along (receives id) ms ++ (start.run ms).buffer.queue id =
          fitting (max config.filterQueue 1) (start.along (offers id interest) ms)) ∧
      ∀ limit ms rest, (∀ m ∈ ms ++ rest, m ≠ .unsubscribe id) →
        let start := (t.step (.subscribe interest limit)).traffic
        let queue := (start.run ms).buffer.queue id
        (start.run ms).buffer.phase = .closed ∨ (∃ most, limit = some most ∧
          max most 1 ≤ (start.along (receives id) ms ++ queue).length) →
        (start.run ms).along (readings id) rest =
          (queue.take (rest.countP (Move.looks id))).map .block ++
            List.replicate (rest.countP (Move.looks id) - queue.length) .ended := by
  intro t id going
  obtain ⟨subs, following⟩ := run_following config past
  refine ⟨fun limit => (subscribe_opens following going interest limit).1, ?_, ?_⟩
  · intro ms kept start
    obtain ⟨-, subs', opened, mem, -, empty⟩ := subscribe_opens following going interest none
    have balance := opened.run_balance mem kept
    rw [empty, List.nil_append] at balance
    have delivered := opened.run_delivers mem kept
    rw [subscribed_config] at delivered
    exact balance.trans delivered
  · intro limit ms rest kept start queue ended
    obtain ⟨-, subs', opened, mem, none, empty⟩ := subscribe_opens following going interest limit
    obtain ⟨early, late⟩ := List.forall_mem_append.mp kept
    obtain ⟨subs'', y, later, hy, ids, limits, received⟩ := opened.run_received mem early
    have gone : (start.run ms).buffer.Gone y.id := by
      refine (later.gone_iff hy).mpr (ended.imp_right ?_)
      rintro ⟨most, rfl, enough⟩
      have balance := opened.run_balance mem early
      rw [empty, List.nil_append] at balance
      rw [balance] at enough
      rw [Buffer.exhausted, limits, received, none, Nat.zero_add]
      simpa using enough
    have open_on : ∀ m ∈ rest, m ≠ .unsubscribe y.id := by
      rw [ids]
      exact late
    have reads := later.run_readings hy gone open_on
    rw [ids] at reads
    exact reads

/-- Everything is subscribed to, with a queue for one block. -/
def feedMoves : List (Move Nat) :=
  [.put 0 (letterBlock 97), .put 0 (letterBlock 98), .read 0, .put 0 (letterBlock 99), .close 0]

/-- The second block comes while the first one is unread, so it is missed. The third one
is left in the queue when the buffer is closed. -/
theorem subscription_faithful_full :
    let start := ((ofConfig { filterQueue := 1, mode := .persistent }).step
      (.subscribe (.ofName ⟨[]⟩) none)).traffic
    start.along (offers 0 (.ofName ⟨[]⟩)) feedMoves =
        [(letterBlock 97, 0), (letterBlock 98, 1), (letterBlock 99, 0)] ∧
      start.along (receives 0) feedMoves ++ (start.run feedMoves).buffer.queue 0 =
        [letterBlock 97, letterBlock 99] ∧
      (start.run feedMoves).buffer.phase = .closed ∧
      (start.run feedMoves).along (readings 0) [.read 0, .read 0] =
        [.block (letterBlock 99), .ended] := by
  intro start
  have kept : ∀ m ∈ feedMoves ++ [.read 0, .read 0], m ≠ .unsubscribe 0 := by
    intro m mem
    simp only [feedMoves, List.cons_append, List.nil_append, List.mem_cons, List.not_mem_nil,
      or_false] at mem
    rcases mem with rfl | rfl | rfl | rfl | rfl | rfl | rfl <;> nofun
  have closed : (start.run feedMoves).buffer.phase = .closed := by decide +kernel
  have offered : start.along (offers 0 (.ofName ⟨[]⟩)) feedMoves =
      [(letterBlock 97, 0), (letterBlock 98, 1), (letterBlock 99, 0)] := by decide +kernel
  have left : (start.run feedMoves).buffer.queue 0 = [letterBlock 99] := by decide +kernel
  obtain ⟨-, log, ends⟩ :=
    subscription_faithful { filterQueue := 1, mode := .persistent } ([] : List (Move Nat)) (.ofName ⟨[]⟩) nofun
  have logged := log feedMoves fun m mem => kept m (List.mem_append_left _ mem)
  have rest := ends none feedMoves [.read 0, .read 0] kept (.inl closed)
  refine ⟨offered, logged.trans ?_, closed, rest.trans ?_⟩
  · exact (congrArg (fitting 1) offered).trans (by decide +kernel)
  · show List.map _ (((start.run feedMoves).buffer.queue 0).take 2) ++
      List.replicate (2 - ((start.run feedMoves).buffer.queue 0).length) _ = _
    rw [left]
    rfl

structure Dropped (t : Traffic κ) (id : Nat) : Prop where
  gone : t.buffer.Gone id
  unfed : t.buffer.feed? id = none

theorem Following.unsubscribe_dropped (h : t.Following subs) {x : Subscription} (hx : x ∈ subs) :
    (t.step (.unsubscribe x.id)).traffic.Dropped x.id :=
  ⟨Buffer.gone_of_forget (h.attended.issued x hx), t.buffer.dropFeed_feed? x.id⟩

theorem Dropped.next (dropped : t.Dropped id) (h : t.Following subs) (m : Move κ) :
    (t.step m).traffic.Dropped id := by
  obtain ⟨f, outcome, shows⟩ := t.step_explained m
  have following := h.next m
  rw [shows.traffic, shows.answer] at following
  rw [shows.traffic]
  refine ⟨outcome.gone h.sound dropped.gone, ?_⟩
  have unfed := dropped.unfed
  rw [Buffer.feed?_eq_none_iff, h.attended.feeds] at unfed
  rw [Buffer.feed?_eq_none_iff, following.attended.feeds]
  intro listed
  obtain ⟨x, hx, rfl⟩ := List.mem_map.mp listed
  obtain ⟨y, hy, same⟩ | ⟨new, -⟩ := outcome.filters_cases hx
  · exact unfed (same ▸ List.mem_map_of_mem hy)
  · exact dropped.gone.1.ne new

omit [DecidableEq κ] in
theorem Dropped.queue (dropped : t.Dropped id) : t.buffer.queue id = [] := by
  rw [Buffer.queue, dropped.unfed]
  rfl

theorem Dropped.run (dropped : t.Dropped id) (h : t.Following subs) (ms : List (Move κ)) :
    (t.run ms).Dropped id ∧ t.along (delivers id) ms = [] ∧ t.along (receives id) ms = [] := by
  induction ms generalizing t subs with
  | nil => exact ⟨dropped, rfl, rfl⟩
  | cons m rest ih =>
    have next := dropped.next h m
    obtain ⟨still, delivered, received⟩ := ih next (h.next m)
    have nothing : t.delivers id m = [] := by
      rw [delivers, next.queue, List.drop_nil]
    have unread : t.receives id m = [] := by
      by_cases read : m = .read id
      · subst read
        rw [receives, readings_of_read, Buffer.readFeed, dropped.unfed]
        rfl
      · exact receives_of_other read
    exact ⟨still, by rw [along, nothing, delivered]; rfl, by rw [along, unread, received]; rfl⟩

/-- No more blocks than the limit come into the queue of the filter, and are read from it,
and when so many have come the filter is registered no more. -/
structure KeepsLimit (start : Traffic κ) (id limit : Nat) (ms : List (Move κ)) : Prop where
  delivered : (start.along (delivers id) ms).length ≤ limit
  read : (start.along (receives id) ms).length ≤ (start.along (delivers id) ms).length
  unregistered : limit ≤ (start.along (delivers id) ms).length →
    (start.run ms).buffer.waiter? id = none ∧
      ∀ name, id ∉ (start.run ms).buffer.matcher.matching name

theorem KeepsLimit.of_gone {limit : Nat} (sound : (t.run ms).Sound)
    (delivered : (t.along (delivers id) ms).length ≤ limit)
    (read : (t.along (receives id) ms).length ≤ (t.along (delivers id) ms).length)
    (gone : limit ≤ (t.along (delivers id) ms).length → (t.run ms).buffer.Gone id) :
    t.KeepsLimit id limit ms :=
  ⟨delivered, read, fun full =>
    ⟨(gone full).waiter?, fun name => (gone full).unmatched sound.buffer name⟩⟩

theorem Following.run_dropped (h : t.Following subs) {x : Subscription} (hx : x ∈ subs)
    {before : List (Move κ)} (kept : ∀ m ∈ before, m ≠ .unsubscribe x.id) (after : List (Move κ)) :
    (t.run (before ++ .unsubscribe x.id :: after)).Sound ∧
      (t.run (before ++ .unsubscribe x.id :: after)).Dropped x.id ∧
      t.along (delivers x.id) (before ++ .unsubscribe x.id :: after) =
        t.along (delivers x.id) before ∧
      t.along (receives x.id) (before ++ .unsubscribe x.id :: after) =
        t.along (receives x.id) before := by
  obtain ⟨subs', y, following, hy, id, -⟩ := h.run_received hx kept
  have dropped := id ▸ following.unsubscribe_dropped hy
  obtain ⟨still, delivered, received⟩ := dropped.run (following.next _) after
  have nothing : (t.run before).delivers x.id (.unsubscribe x.id) = [] := by
    rw [delivers, dropped.queue, List.drop_nil]
  have unread : (t.run before).receives x.id (.unsubscribe x.id) = [] := rfl
  have sound := (run_preserves (P := fun _ => True) (fun _ _ _ _ _ _ => trivial) h.sound trivial
    (before ++ .unsubscribe x.id :: after)).1
  refine ⟨sound, ?_, ?_, ?_⟩
  · rw [run_append]
    exact still
  · rw [along_append, along, nothing, delivered, List.append_nil, List.append_nil]
  · rw [along_append, along, unread, received, List.append_nil, List.append_nil]

namespace Following

variable {x : Subscription} {limit : Nat} (h : t.Following subs) (hx : x ∈ subs)
  (limited : x.limit = some limit) (new : t.buffer.received x = 0)
  (empty : t.buffer.queue x.id = [])
include h hx limited new empty

omit empty in
theorem delivers_take (kept : ∀ m ∈ ms, m ≠ .unsubscribe x.id) :
    t.along (delivers x.id) ms = (fitting (max t.buffer.config.filterQueue 1)
      (t.along (offers x.id x.interest) ms)).take (max limit 1) := by
  rw [h.run_delivers hx kept, Buffer.remaining, limited, new]
  rfl

theorem keepsLimit_open (kept : ∀ m ∈ ms, m ≠ .unsubscribe x.id) :
    t.KeepsLimit x.id (max limit 1) ms := by
  obtain ⟨subs', y, following, hy, id, limits, received⟩ := h.run_received hx kept
  have balance := congrArg List.length (h.run_balance hx kept)
  rw [empty, List.nil_append, List.length_append] at balance
  refine .of_gone following.sound ?_ (by omega) fun full => ?_
  · rw [h.delivers_take hx limited new kept]
    exact List.length_take_le _ _
  · rw [← id]
    refine (following.gone_iff hy).mpr (.inr ?_)
    rw [Buffer.exhausted, limits, limited, received, new, Nat.zero_add]
    simpa using full

theorem keepsLimit (ms : List (Move κ)) : t.KeepsLimit x.id (max limit 1) ms := by
  by_cases drops : .unsubscribe x.id ∈ ms
  · obtain ⟨before, after, rfl, kept⟩ := List.eq_append_cons_of_mem drops
    have kept : ∀ m ∈ before, m ≠ .unsubscribe x.id := fun m mem same => kept (same ▸ mem)
    have early := h.keepsLimit_open hx limited new empty kept
    obtain ⟨sound, dropped, delivered, received⟩ := h.run_dropped hx kept after
    exact .of_gone sound (delivered ▸ early.delivered)
      (received.symm ▸ delivered.symm ▸ early.read) fun _ => dropped.gone
  · exact h.keepsLimit_open hx limited new empty fun m mem same => drops (same ▸ mem)

end Following

/-- A filter with a limit takes up to its limit of what is put and fits, at least one
block, and then it is registered no more. So it keeps the limit in every run, just if
that is not none. -/
theorem limit_kept_iff (config : Buffer.Config) (past : List (Move κ)) (interest : Interest)
    (limit : Nat) :
    let t := (ofConfig config).run past
    let id := t.buffer.nextId
    let start := (t.step (.subscribe interest (some limit))).traffic
    t.buffer.phase ≠ .closed →
      (t.step (.subscribe interest (some limit))).answer = some (.ok (.registered id)) ∧
      (∀ ms, (∀ m ∈ ms, m ≠ .unsubscribe id) → start.along (delivers id) ms =
        (fitting (max config.filterQueue 1) (start.along (offers id interest) ms)).take
          (max limit 1)) ∧
      (∀ ms, start.KeepsLimit id (max limit 1) ms) ∧
      ((∀ ms, start.KeepsLimit id limit ms) ↔ limit ≠ 0) := by
  intro t id start going
  obtain ⟨subs, following⟩ := run_following config past
  obtain ⟨answer, subs', opened, mem, new, empty⟩ :=
    subscribe_opens following going interest (some limit)
  have keeps := opened.keepsLimit mem rfl new empty
  refine ⟨answer, fun ms kept => ?_, keeps, fun keeps_none => ?_, fun some_block ms => ?_⟩
  · have taken := opened.delivers_take mem rfl new kept
    rwa [subscribed_config] at taken
  · rintro rfl
    -- at once it has all that it may have, and it is registered still
    obtain ⟨absent, -⟩ := (keeps_none []).unregistered (Nat.zero_le _)
    have gone : start.buffer.Gone id :=
      ⟨opened.attended.issued _ mem, by simpa [Buffer.waiter?, run] using absent⟩
    have phase : start.buffer.phase = t.buffer.phase := by
      show (t.step (.subscribe interest (some 0))).traffic.buffer.phase = _
      rw [step_subscribe going]
      rfl
    obtain closed | exhausted := (opened.gone_iff mem).mp gone
    · exact going (phase.symm.trans closed)
    · simp [Buffer.exhausted, new] at exhausted
  · have least : max limit 1 = limit := by omega
    exact least ▸ keeps ms

def limitedMoves : List (Move Nat) :=
  [.put 0 (letterBlock 97), .read 0, .put 0 (letterBlock 98), .put 0 (letterBlock 99)]

theorem limit_kept_two :
    let start := ((ofConfig {}).step (.subscribe (.ofName ⟨[]⟩) (some 2))).traffic
    start.along (delivers 0) limitedMoves = [letterBlock 97, letterBlock 98] ∧
      start.KeepsLimit 0 2 limitedMoves := by
  intro start
  obtain ⟨-, taken, -, keeps⟩ := limit_kept_iff {} ([] : List (Move Nat)) (.ofName ⟨[]⟩) 2 nofun
  have kept : ∀ m ∈ limitedMoves, m ≠ .unsubscribe 0 := by
    intro m mem
    simp only [limitedMoves, List.mem_cons, List.not_mem_nil, or_false] at mem
    rcases mem with rfl | rfl | rfl | rfl <;> nofun
  exact ⟨(taken limitedMoves kept).trans (by decide +kernel), keeps.mpr (by decide) limitedMoves⟩

/-- A filter that is to have no block at all is given one. -/
theorem limit_none_exceeded :
    let start := ((ofConfig {}).step (.subscribe (.ofName ⟨[]⟩) (some 0))).traffic
    start.along (delivers 0) limitedMoves = [letterBlock 97] ∧
      start.along (receives 0) limitedMoves = [letterBlock 97] ∧
      ¬start.KeepsLimit 0 0 limitedMoves := by
  intro start
  have delivered : start.along (delivers 0) limitedMoves = [letterBlock 97] := by decide +kernel
  refine ⟨delivered, by decide +kernel, fun keeps => ?_⟩
  have none := keeps.delivered
  rw [delivered] at none
  contradiction

end NamedContent.Traffic
