import Mathlib
import NamedContent.Proofs.Traffic.Age
import NamedContent.Proofs.Traffic.CopiedOnly

/-!
# Who is served by a put

A put that inserts a block serves the waiters whose interests match its name.
All requests among them have the block, in best-effort mode only the one that
has waited longest, and each filter whose feed has room has one copy. All others
are left where they were, and the new entry counts those who were served.
-/

set_option autoImplicit false

namespace NamedContent

namespace Traffic

variable {κ : Type} [DecidableEq κ] {t t' : Traffic κ} {m : Move κ} {f : Effect κ} {now : Nat}
  {block : Block} {w : Waiter}

structure Handed (t t' : Traffic κ) (block : Block) (w : Waiter) : Prop where
  call : ∃ who deadline, (who, .request w.id deadline .empty) ∈ t.calls ∧
    (who, .request w.id deadline (.handed block)) ∈ t'.calls
  gone : ∀ v ∈ t'.buffer.pending, v.id ≠ w.id

def Copied (t t' : Traffic κ) (block : Block) (w : Waiter) : Prop :=
  ∃ feed, t.buffer.feed? w.id = some feed ∧
    t'.buffer.feed? w.id = some { feed with queue := feed.queue ++ [block] }

def Receives (t t' : Traffic κ) (block : Block) (w : Waiter) : Prop :=
  match w.demand with
  | .once => t.Handed t' block w
  | .standing _ _ => t.Copied t' block w

/-- The waiter goes on waiting as it did, with its call and its feed as they were. -/
structure Undisturbed (t t' : Traffic κ) (w : Waiter) : Prop where
  waits : w ∈ t'.buffer.pending
  registered : t'.buffer.matcher.holds w.interest.name w.id = true
  calls : ∀ who deadline slot, (who, .request w.id deadline slot) ∈ t'.calls ↔
    (who, .request w.id deadline slot) ∈ t.calls
  feed : t'.buffer.feed? w.id = t.buffer.feed? w.id

open scoped Classical in
noncomputable def receivers (t t' : Traffic κ) (block : Block) : List Waiter :=
  t.buffer.pending.filter fun w => t.Receives t' block w

/-- A put with this block serves just those that it is to serve. -/
structure Serves (config : Buffer.Config) (ms : List (Move κ)) (t t' : Traffic κ)
    (block : Block) : Prop where
  unmatched : ∀ w ∈ t.buffer.pending, w.interest.accepts block.name = false → t.Undisturbed t' w
  persistent : config.mode = .persistent → ∀ w ∈ t.buffer.pending, w.demand = .once →
    w.interest.accepts block.name = true → t.Receives t' block w
  bestEffort : config.mode = .bestEffort → (∃ w ∈ t.buffer.pending, w.demand = .once ∧
      w.interest.accepts block.name = true) →
    ∃ w ∈ t.buffer.pending, w.demand = .once ∧ w.interest.accepts block.name = true ∧
      t.Receives t' block w ∧
      ∀ v ∈ t.buffer.pending, v.demand = .once → v.interest.accepts block.name = true →
        v = w ∨ t.Undisturbed t' v ∧ ∃ n k, n < k ∧ (ofConfig config).WaitsSince ms n w ∧
          (ofConfig config).WaitsSince ms k v
  filters : ∀ w ∈ t.buffer.pending, w.demand ≠ .once → w.interest.accepts block.name = true →
    ∃ feed, t.buffer.feed? w.id = some feed ∧
      (feed.queue.length < max config.filterQueue 1 → t.Receives t' block w) ∧
      (max config.filterQueue 1 ≤ feed.queue.length → t.Undisturbed t' w)
  counted : ∃ e, t'.buffer.entries.find? block.name = some e ∧ e.block = block ∧
    e.deliveries = (t.receivers t' block).length

theorem Trade.filed (trade : t.Trade m f) (inserts : t.inserts? m = some block) :
    (∃ who deadline, t.Puts m who block deadline f.kept) ∧
      t.buffer.tryInsert block = .filed f.buffer f.notices ∧ f.added = [] := by
  cases trade with
  | files puts tried added inserts' =>
    cases inserts.symm.trans inserts'
    exact ⟨⟨_, _, puts⟩, tried, added⟩
  | serves _ _ _ _ _ _ none | fetches _ _ _ _ _ _ none | neither _ none =>
    rw [none] at inserts
    contradiction

theorem Trade.calls_iff (trade : t.Trade m f) (outcome : t.Outcome m f) (sound : t.Sound)
    (inserts : t.inserts? m = some block) {who : κ} {id deadline : Nat} {slot : Slot}
    (untold : .handed id block ∉ f.notices) :
    (who, .request id deadline slot) ∈ (f.traffic now).calls ↔
      (who, .request id deadline slot) ∈ t.calls := by
  obtain ⟨⟨_, _, puts⟩, tried, added⟩ := trade.filed inserts
  have filed := filed_of_tryInsert sound tried
  have told {block' : Block} (told : .handed id block' ∈ f.notices) : False := by
    obtain ⟨rfl, -⟩ := filed.handed _ _ told
    exact untold told
  rw [mem_effect_calls, added]
  constructor
  · rintro (old | new)
    · obtain ⟨slot', listed, rfl | ⟨-, ⟨_, -, told'⟩ | ⟨-, released⟩⟩⟩ := request_of_heard old
      · exact outcome.call_cases listed
      · exact (told told').elim
      · exact absurd released (filed.unreleased id)
    · contradiction
  · intro listed
    refine .inl (mem_heard.mpr ⟨_, puts.keeps_request sound listed, ?_⟩)
    obtain ⟨slot', same, rfl | ⟨-, ⟨_, -, told'⟩ | ⟨-, released⟩⟩⟩ :=
      Call.request_heard id deadline slot f.notices
    · exact same.symm
    · exact (told told').elim
    · exact absurd released (filed.unreleased id)

section Step

variable (outcome : t.Outcome m f) (trade : t.Trade m f) (sound : t.Sound)
  (orderly : t.buffer.Orderly) (inserts : t.inserts? m = some block)

include outcome trade sound orderly inserts

theorem Trade.handed_to_taker (awaited : t.Awaited) (taker : w ∈ t.buffer.takers block) :
    t.Handed (f.traffic now) block w := by
  obtain ⟨-, tried, -⟩ := trade.filed inserts
  obtain ⟨waits, once, -⟩ := Buffer.mem_claimants.mp (Buffer.mem_of_mem_takers taker)
  have told := (orderly.handed_iff tried).mpr ⟨w, taker, rfl⟩
  obtain ⟨who, deadline, listed⟩ := awaited w waits once
  exact ⟨⟨who, deadline, listed, (trade.handed_on sound listed told).2⟩,
    (outcome.gone_of_told trade sound told).2⟩

omit outcome sound in
theorem Trade.copied_to_watcher (watcher : w ∈ t.buffer.watchers block) :
    t.Copied (f.traffic now) block w := by
  obtain ⟨-, tried, -⟩ := trade.filed inserts
  obtain ⟨-, -, -, room⟩ := Buffer.mem_watchers.mp watcher
  cases found : t.buffer.feed? w.id with
  | some feed => exact ⟨feed, found, orderly.filed_watched tried watcher found⟩
  | none => simp [Buffer.hasRoom, found] at room

theorem Trade.undisturbed (waits : w ∈ t.buffer.pending) (untaken : w ∉ t.buffer.takers block)
    (unseen : w ∉ t.buffer.watchers block) : t.Undisturbed (f.traffic now) w := by
  obtain ⟨-, tried, -⟩ := trade.filed inserts
  have untold : .handed w.id block ∉ f.notices := by
    intro told
    obtain ⟨v, taker, same⟩ := (orderly.handed_iff tried).mp told
    obtain ⟨waits', -⟩ := Buffer.mem_claimants.mp (Buffer.mem_of_mem_takers taker)
    exact untaken (Buffer.same_of_id sound.buffer waits' waits same ▸ taker)
  have still : w ∈ f.buffer.pending := by
    by_cases once : w.demand = .once
    · rw [← Buffer.makeRoom_pending _ block.name] at waits
      exact ((filed_of_tryInsert sound tried).once w once).mpr ⟨waits, untold⟩
    · refine orderly.filed_unwatched tried waits once ?_
      rw [← Bool.not_eq_true]
      exact fun sees => unseen (List.mem_filter.mpr ⟨waits, sees⟩)
  exact ⟨still, ((filed_of_tryInsert sound tried).consistent.held _ _).mpr ⟨w, still, rfl, rfl⟩,
    fun who deadline slot => trade.calls_iff outcome sound inserts untold,
    orderly.filed_unfed tried waits unseen⟩

theorem Trade.receives_iff (awaited : t.Awaited) (waits : w ∈ t.buffer.pending) :
    t.Receives (f.traffic now) block w ↔
      w ∈ t.buffer.takers block ∨ w ∈ t.buffer.watchers block := by
  constructor
  · intro receives
    by_contra neither
    obtain ⟨untaken, unseen⟩ := not_or.mp neither
    have same : t.Undisturbed (f.traffic now) w :=
      trade.undisturbed outcome sound orderly inserts waits untaken unseen
    rw [Receives] at receives
    split at receives
    · exact receives.gone w same.waits rfl
    · obtain ⟨feed, before, after⟩ := receives
      rw [same.feed, before] at after
      have longer := congrArg (fun feed => feed.queue.length) (Option.some.inj after)
      simp at longer
  · rintro (taker | watcher)
    · obtain ⟨-, once, -⟩ := Buffer.mem_claimants.mp (Buffer.mem_of_mem_takers taker)
      rw [Receives, once]
      exact trade.handed_to_taker outcome sound orderly inserts awaited taker
    · obtain ⟨-, stands, -⟩ := Buffer.mem_watchers.mp watcher
      rw [Receives]
      split
      · exact absurd ‹w.demand = .once› stands
      · exact trade.copied_to_watcher orderly inserts watcher

theorem Trade.receivers_length (awaited : t.Awaited) :
    (t.receivers (f.traffic now) block).length =
      (t.buffer.takers block).length + (t.buffer.watchers block).length := by
  have distinct : t.buffer.pending.Nodup := .of_map _ sound.buffer.distinct
  have claimants : (t.buffer.claimants block).Sublist t.buffer.pending := List.filter_sublist
  have takers := (t.buffer.takers_sublist block).trans claimants
  have watchers : (t.buffer.watchers block).Sublist t.buffer.pending := List.filter_sublist
  have receivers : (t.receivers (f.traffic now) block).Sublist t.buffer.pending :=
    List.filter_sublist
  have apart : (t.buffer.takers block).Disjoint (t.buffer.watchers block) := by
    intro w taker watcher
    obtain ⟨-, once, -⟩ := Buffer.mem_claimants.mp (Buffer.mem_of_mem_takers taker)
    exact (Buffer.mem_watchers.mp watcher).2.1 once
  rw [← List.length_append]
  refine ((List.perm_ext_iff_of_nodup (distinct.sublist receivers)
    ((distinct.sublist takers).append (distinct.sublist watchers) apart)).mpr ?_).length_eq
  intro w
  have iff (waits : w ∈ t.buffer.pending) : t.Receives (f.traffic now) block w ↔
      w ∈ t.buffer.takers block ∨ w ∈ t.buffer.watchers block :=
    trade.receives_iff outcome sound orderly inserts awaited waits
  simp only [Traffic.receivers, List.mem_filter, List.mem_append, decide_eq_true_eq]
  constructor
  · rintro ⟨waits, receives⟩
    exact (iff waits).mp receives
  · intro served
    have waits : w ∈ t.buffer.pending := served.elim (takers.subset ·) (watchers.subset ·)
    exact ⟨waits, (iff waits).mpr served⟩

end Step

/-- Every put that inserts a block serves just the waiters that it is to serve. -/
theorem put_serves (config : Buffer.Config) (ms : List (Move κ)) (m : Move κ) (block : Block)
    (inserts : ((ofConfig config).run ms).inserts? m = some block) :
    Serves config ms ((ofConfig config).run ms) (((ofConfig config).run ms).step m).traffic
      block := by
  obtain ⟨f, outcome, shows⟩ := ((ofConfig config).run ms).step_explained m
  have trade := outcome.trade shows.answer
  have sound := run_sound config ms
  have orderly : ((ofConfig config).run ms).buffer.Orderly :=
    run_orderly (Buffer.ofConfig_orderly config) ms
  have awaited : ((ofConfig config).run ms).Awaited := run_awaited config ms
  obtain ⟨subs, attended, -⟩ := run_attended config ms
  obtain ⟨-, tried, -⟩ := trade.filed inserts
  have settings := run_config config ms
  have longer {w v : Waiter} := waits_longer config ms (w := w) (v := v)
  rw [shows.traffic]
  generalize (ofConfig config).run ms = t at *
  have receives {w : Waiter} (waits : w ∈ t.buffer.pending) :
      t.Receives (f.traffic (t.now + m.duration)) block w ↔
        w ∈ t.buffer.takers block ∨ w ∈ t.buffer.watchers block :=
    trade.receives_iff outcome sound orderly inserts awaited waits
  have stays {w : Waiter} (waits : w ∈ t.buffer.pending) (untaken : w ∉ t.buffer.takers block)
      (unseen : w ∉ t.buffer.watchers block) :
      t.Undisturbed (f.traffic (t.now + m.duration)) w :=
    trade.undisturbed outcome sound orderly inserts waits untaken unseen
  constructor
  case unmatched =>
    intro w waits other
    refine stays waits ?_ ?_
    · intro taker
      have claimant := Buffer.mem_claimants.mp (Buffer.mem_of_mem_takers taker)
      rw [claimant.2.2] at other
      contradiction
    · intro watcher
      rw [(Buffer.mem_watchers.mp watcher).2.2.1] at other
      contradiction
  case persistent =>
    intro mode w waits once accepts
    have persistent : t.buffer.bestEffort = false := by simp [Buffer.bestEffort, settings, mode]
    rw [receives waits, Buffer.takers_of_persistent persistent]
    exact .inl (Buffer.mem_claimants.mpr ⟨waits, once, accepts⟩)
  case bestEffort =>
    rintro mode ⟨w, waits, once, accepts⟩
    have best : t.buffer.bestEffort = true := by simp [Buffer.bestEffort, settings, mode]
    obtain ⟨first, claims, alone, oldest⟩ := Buffer.takers_of_bestEffort orderly.inOrder best
      (Buffer.mem_claimants.mpr ⟨waits, once, accepts⟩)
    obtain ⟨waits, once, accepts⟩ := Buffer.mem_claimants.mp claims
    refine ⟨first, waits, once, accepts, (receives waits).mpr (.inl (by simp [alone])), ?_⟩
    intro v waits' once' accepts'
    refine (oldest v (Buffer.mem_claimants.mpr ⟨waits', once', accepts'⟩)).imp_right fun less => ?_
    refine ⟨stays waits' ?_ ?_, longer waits once waits' once' less⟩
    · rw [alone, List.mem_singleton]
      rintro rfl
      exact less.false
    · exact fun watcher => (Buffer.mem_watchers.mp watcher).2.1 once'
  case filters =>
    intro w waits stands accepts
    have accepting := (Buffer.tryInsert_filed tried).1
    obtain ⟨x, hx, -, rfl⟩ := (attended.standing (by rw [accepting]; simp) w stands).mp waits
    obtain ⟨feed, found⟩ := attended.feed? hx
    have room := Buffer.hasRoom_iff found
    rw [settings] at room
    refine ⟨feed, found, ?_, ?_⟩
    · intro less
      exact (receives waits).mpr
        (.inr (Buffer.mem_watchers.mpr ⟨waits, stands, accepts, room.mpr less⟩))
    · intro full
      refine stays waits ?_ ?_
      · exact fun taker => stands (Buffer.mem_claimants.mp (Buffer.mem_of_mem_takers taker)).2.1
      · exact fun watcher => full.not_gt (room.mp (Buffer.mem_watchers.mp watcher).2.2.2)
  case counted =>
    refine ⟨_, orderly.stored tried, rfl, ?_⟩
    exact (trade.receivers_length outcome sound orderly inserts awaited).symm

/-- A filter that has not read its one block, a later filter, and two requests. -/
def servingMoves : List (Move Nat) :=
  let interest := Interest.ofName (letterBlock 97).name
  [.subscribe interest none, .put 0 (letterBlock 97), .subscribe interest none,
    .request 1 interest 10, .request 2 interest 10]

/-- The next block meets a full filter, one with room, and two requests. -/
theorem put_serves_four :
    let t := (ofConfig { filterQueue := 1 }).run servingMoves
    t.inserts? (.put 0 (letterBlock 97)) = some (letterBlock 97) ∧
      t.buffer.pending.map (·.id) = [0, 1, 2, 3] ∧
      t.buffer.feeds.map (·.queue.length) = [1, 0] ∧
      Serves { filterQueue := 1 } servingMoves t (t.step (.put 0 (letterBlock 97))).traffic
        (letterBlock 97) := by
  have inserts : ((ofConfig { filterQueue := 1 }).run servingMoves).inserts?
      (.put 0 (letterBlock 97)) = some (letterBlock 97) := by decide +kernel
  exact ⟨inserts, by decide +kernel, by decide +kernel,
    put_serves { filterQueue := 1 } servingMoves (.put 0 (letterBlock 97)) (letterBlock 97) inserts⟩

end Traffic

end NamedContent
