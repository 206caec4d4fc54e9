import Mathlib
import NamedContent.Proofs.Traffic.Serving

/-!
# How many readers a block has had

The readers of an insertion are those that get the block as it is put and the
requests that find it in the buffer later. The counter of its entry goes up with
each of them. It has 32 bits, so it tells their number until a request makes it
2^32: there it is zero again, and the entry counts as unclaimed like one that
nobody has had.
-/

set_option autoImplicit false

namespace NamedContent

namespace Buffer

def unread (b : Buffer) : List Entry := b.entries.values.filter fun e => e.deliveries = 0

theorem unclaimed_eq_length (b : Buffer) : b.unclaimed = b.unread.length := rfl

theorem mem_unread {b : Buffer} {e : Entry} :
    e ∈ b.unread ↔ (∃ name, (name, e) ∈ b.entries.toList) ∧ e.deliveries = 0 := by
  simp [unread, Table.values]

theorem Change.nextId_le_succ {b b' : Buffer} {ns : List Notice} (change : b.Change b' ns)
    (h : b.Consistent) : b'.nextId ≤ b.nextId + 1 := by
  cases change with
  | file _ _ _ filed =>
    rw [(file_filed (makeRoom_consistent h _) filed).nextId, makeRoom_nextId]
    exact Nat.le_succ _
  | park => exact Nat.le_refl _
  | miss =>
    rw [forget_nextId]
    exact Nat.le_refl _
  | forget id =>
    rw [forget_nextId]
    exact Nat.le_succ _
  | subscribe opened =>
    obtain ⟨-, rfl⟩ := subscribe?_eq_some opened
    exact Nat.le_refl _
  | dropFeed id => exact (forget_nextId b id).le.trans (Nat.le_succ _)
  | _ => exact Nat.le_succ _

theorem Consistent.pending_length_le {b : Buffer} (h : b.Consistent) :
    b.pending.length ≤ b.nextId := by
  have issued : b.pending.map (·.id) ⊆ List.range b.nextId := by
    intro id listed
    obtain ⟨w, waits, rfl⟩ := List.mem_map.mp listed
    exact List.mem_range.mpr (h.below w waits)
  have fits := (h.distinct.subperm issued).length_le
  rwa [List.length_map, List.length_range] at fits

theorem Orderly.copies_iff {b b' : Buffer} {block : Block} {ns : List Notice}
    (h : b.Orderly) (tried : b.tryInsert block = .filed b' ns) :
    b.Copies block b' ↔ b.watchers block ≠ [] := by
  constructor
  · rintro ⟨id, feed, copies, before, after⟩ nobody
    have same := h.filed_feed? tried id
    rw [before, after, nobody, Option.map_some] at same
    have longer := congrArg (fun feed => feed.queue.length) (Option.some.inj same)
    simp [Feed.more] at longer
  · intro some
    obtain ⟨w, watcher⟩ := List.exists_mem_of_ne_nil _ some
    obtain ⟨-, -, -, room⟩ := mem_watchers.mp watcher
    cases found : b.feed? w.id with
    | none => simp [hasRoom, found] at room
    | some feed => exact ⟨w.id, feed, 0, found, h.filed_watched tried watcher found⟩

end Buffer

namespace Traffic

variable {κ : Type} [DecidableEq κ] {t : Traffic κ} {m : Move κ} {f : Effect κ}
  {a : Account κ} {name : Name} {order : Nat}

/-- The entry that a request finds in the buffer and is served from. -/
def servedFrom? (t : Traffic κ) (m : Move κ) : Option Entry :=
  match m with
  | .request .. => (t.returns? m).bind fun r => t.buffer.entries.find? r.2.name
  | _ => none

/-- How many readers the move brings the block of this insertion to. -/
noncomputable def readersBy (t : Traffic κ) (m : Move κ) (order : Nat) : Nat :=
  match t.inserts? m with
  | some block =>
    if order = t.buffer.nextOrder then (t.receivers (t.step m).traffic block).length else 0
  | none => if (t.servedFrom? m).map (·.order) = some order then 1 else 0

/-- How many readers the block of this insertion has had in the run. -/
noncomputable def readers (t : Traffic κ) : List (Move κ) → Nat → Nat
  | [], _ => 0
  | m :: rest, order => t.readersBy m order + (t.step m).traffic.readers rest order

theorem readers_append (t : Traffic κ) (ms rest : List (Move κ)) (order : Nat) :
    t.readers (ms ++ rest) order = t.readers ms order + (t.run ms).readers rest order := by
  induction ms generalizing t with
  | nil => exact (Nat.zero_add _).symm
  | cons m ms ih =>
    show t.readersBy m order + (t.step m).traffic.readers (ms ++ rest) order = _
    rw [ih, ← Nat.add_assoc]
    rfl

theorem readers_snoc (t : Traffic κ) (ms : List (Move κ)) (m : Move κ) (order : Nat) :
    t.readers (ms ++ [m]) order = t.readers ms order + (t.run ms).readersBy m order :=
  t.readers_append ms [m] order

theorem readersBy_of_inserts {block : Block} (inserts : t.inserts? m = some block) :
    t.readersBy m order =
      if order = t.buffer.nextOrder then (t.receivers (t.step m).traffic block).length else 0 := by
  rw [readersBy, inserts]

theorem readersBy_of_served (inserts : t.inserts? m = none) :
    t.readersBy m order = if (t.servedFrom? m).map (·.order) = some order then 1 else 0 := by
  rw [readersBy, inserts]

theorem servedFrom?_of_listed {who : κ} {interest : Interest} {timeout : Nat} {e : Entry}
    (listed : (e.block.name, e) ∈ t.buffer.entries.toList)
    (move : m = .request who interest timeout) (returns : t.returns? m = some (who, e.block)) :
    t.servedFrom? m = some e := by
  subst move
  rw [servedFrom?, returns]
  exact Table.find?_eq_some.mpr listed

theorem listed_of_servedFrom? {e : Entry} (source : t.servedFrom? m = some e) :
    ∃ name, (name, e) ∈ t.buffer.entries.toList := by
  cases m with
  | request =>
    obtain ⟨r, -, found⟩ := Option.bind_eq_some_iff.mp source
    exact ⟨r.2.name, Table.find?_eq_some.mp found⟩
  | _ => contradiction

theorem servedFrom?_of_returns (returns : t.returns? m = none) : t.servedFrom? m = none := by
  cases m with
  | request =>
    rw [servedFrom?, returns]
    rfl
  | _ => rfl

theorem Trade.of_servedFrom? (trade : t.Trade m f) (sound : t.Sound) {e : Entry}
    (source : t.servedFrom? m = some e) :
    ∃ who interest timeout, m = .request who interest timeout ∧
      (e.block.name, e) ∈ t.buffer.entries.toList ∧ t.buffer.isAvailable interest e = true ∧
      t.returns? m = some (who, e.block) := by
  cases m with
  | request who interest timeout =>
    obtain ⟨⟨who', block⟩, returns, found⟩ := Option.bind_eq_some_iff.mp source
    obtain ⟨_, _, move, -, taken⟩ | ⟨_, _, move, -⟩ := trade.of_returns returns
    · obtain ⟨e', there, available, rfl, -⟩ := Buffer.take?_eq_some sound.buffer taken
      obtain rfl := Option.some.inj (found.symm.trans (Table.find?_eq_some.mpr there))
      cases move
      exact ⟨who, interest, timeout, rfl, there, available, returns⟩
    · cases move
  | _ => contradiction

/-- What the counter of an entry owes to the move: the entry is new and counts
its first readers, or it is as it was and has got none, or a request is served
from it. -/
inductive Counted (t : Traffic κ) (m : Move κ) (name : Name) (e' : Entry) : Prop where
  | filed (number : e'.order = t.buffer.nextOrder) (count : e'.deliveries = t.readersBy m e'.order)
  | stays (listed : (name, e') ∈ t.buffer.entries.toList) (nobody : t.readersBy m e'.order = 0)
  | served {e : Entry} (listed : (name, e) ∈ t.buffer.entries.toList)
      (source : t.servedFrom? m = some e) (after : e' = e.afterRead)
      (reader : t.readersBy m e.order = 1)

section Step

variable (trade : t.Trade m f) (outcome : t.Outcome m f) (sound : t.Sound)
  (orderly : t.buffer.Orderly) (awaited : t.Awaited)
  (traffic : (t.step m).traffic = f.traffic (t.now + m.duration))

include trade outcome sound orderly awaited traffic

theorem Trade.readersBy_filed {block : Block} (inserts : t.inserts? m = some block) :
    t.readersBy m order = if order = t.buffer.nextOrder then
      (t.buffer.takers block).length + (t.buffer.watchers block).length else 0 := by
  rw [readersBy_of_inserts inserts, traffic,
    trade.receivers_length outcome sound orderly inserts awaited]

theorem Trade.counted_filed (h : t.Balanced a) {block : Block}
    (inserts : t.inserts? m = some block) {e' : Entry}
    (listed : (name, e') ∈ f.buffer.entries.toList) : t.Counted m name e' := by
  obtain ⟨-, tried, -⟩ := trade.filed inserts
  have count {order : Nat} : t.readersBy m order = if order = t.buffer.nextOrder then
      (t.buffer.takers block).length + (t.buffer.watchers block).length else 0 :=
    trade.readersBy_filed outcome sound orderly awaited traffic inserts
  have entries := (filed_of_tryInsert sound tried).entries
  rw [entries] at listed
  rcases Table.mem_insert.mp listed with new | ⟨old, -⟩
  · obtain ⟨rfl, same⟩ := Prod.mk.inj new
    have stored := orderly.stored tried
    rw [entries, Table.find?_insert, if_pos rfl, ← same] at stored
    obtain rfl := Option.some.inj stored
    exact .filed rfl (by rw [count, if_pos rfl])
  · have there := Buffer.mem_of_makeRoom old
    have before := h.order_lt there
    rw [h.count] at before
    exact .stays there (by rw [count, if_neg before.ne])

omit outcome orderly awaited traffic in
theorem Trade.counted_served (h : t.Balanced a) (inserts : t.inserts? m = none) {e' : Entry}
    (listed : (name, e') ∈ f.buffer.entries.toList) : t.Counted m name e' := by
  have count {order : Nat} : t.readersBy m order =
      if (t.servedFrom? m).map (·.order) = some order then 1 else 0 :=
    readersBy_of_served inserts
  cases trade with
  | files _ _ _ inserts' =>
    rw [inserts] at inserts'
    contradiction
  | serves move free taken _ _ _ _ returns =>
    obtain ⟨e, there, -, rfl, buffer⟩ := Buffer.take?_eq_some sound.buffer taken
    have source := servedFrom?_of_listed there move returns
    rw [source] at count
    rw [buffer] at listed
    rcases Table.mem_insert.mp listed with new | ⟨old, apart⟩
    · obtain ⟨rfl, rfl⟩ := Prod.mk.inj new
      exact .served there source rfl (count.trans (if_pos rfl))
    · refine .stays old (count.trans (if_neg fun same => apart ?_))
      exact h.distinct _ _ _ _ old there (Option.some.inj same).symm
  | fetches move waits _ buffer =>
    -- this reader was counted as the block was put, and only picks it up now
    have nowhere : t.servedFrom? m = none := by
      rw [move]
      rfl
    rw [nowhere] at count
    exact .stays (buffer ▸ listed) count
  | neither calm _ returns =>
    rw [servedFrom?_of_returns returns] at count
    exact .stays (calm.entries _ listed) count

theorem Trade.counted (h : t.Balanced a) {e' : Entry}
    (listed : (name, e') ∈ f.buffer.entries.toList) : t.Counted m name e' := by
  cases inserts : t.inserts? m with
  | some block => exact trade.counted_filed outcome sound orderly awaited traffic h inserts listed
  | none => exact trade.counted_served sound h inserts listed

omit outcome orderly awaited traffic in
theorem Trade.delivers_iff_served (inserts : t.inserts? m = none) :
    t.Delivers m order ↔ (t.servedFrom? m).map (·.order) = some order := by
  constructor
  · intro delivers
    cases delivers with
    | hands _ sent =>
      have told := (trade.told sound (trade.mem_handsOut.mp sent)).1
      rw [inserts] at told
      contradiction
    | copies _ inserts' =>
      rw [inserts] at inserts'
      contradiction
    | serves listed number move returns =>
      obtain rfl := sound.buffer.keyed _ _ listed
      rw [servedFrom?_of_listed listed move returns, Option.map_some, number]
  · intro some
    obtain ⟨e, source, rfl⟩ := Option.map_eq_some_iff.mp some
    obtain ⟨_, _, _, move, listed, -, returns⟩ := trade.of_servedFrom? sound source
    exact .serves listed rfl move returns

omit outcome awaited in
theorem Trade.delivers_iff_filed {block : Block} (inserts : t.inserts? m = some block) :
    t.Delivers m order ↔ order = t.buffer.nextOrder ∧
      (t.buffer.takers block ≠ [] ∨ t.buffer.watchers block ≠ []) := by
  obtain ⟨-, tried, -⟩ := trade.filed inserts
  have copies := orderly.copies_iff tried
  constructor
  · intro delivers
    cases delivers with
    | hands number sent =>
      have told := trade.mem_handsOut.mp sent
      obtain rfl := Option.some.inj (inserts.symm.trans (trade.told sound told).1)
      obtain ⟨w, taker, -⟩ := (orderly.handed_iff tried).mp told
      exact ⟨number, .inl (List.ne_nil_of_mem taker)⟩
    | copies number inserts' copied =>
      obtain rfl := Option.some.inj (inserts.symm.trans inserts')
      rw [traffic] at copied
      exact ⟨number, .inr (copies.mp copied)⟩
    | serves _ _ move =>
      rw [move, inserts?] at inserts
      split at inserts <;> contradiction
  · rintro ⟨number, taken | seen⟩
    · obtain ⟨w, taker⟩ := List.exists_mem_of_ne_nil _ taken
      have told := (orderly.handed_iff tried).mpr ⟨w, taker, rfl⟩
      exact .hands number (trade.mem_handsOut.mpr told)
    · refine .copies number inserts ?_
      rw [traffic]
      exact copies.mpr seen

theorem Trade.delivers_iff : t.Delivers m order ↔ t.readersBy m order ≠ 0 := by
  cases inserts : t.inserts? m with
  | none =>
    rw [readersBy_of_served inserts, trade.delivers_iff_served sound inserts]
    simp
  | some block =>
    rw [trade.readersBy_filed outcome sound orderly awaited traffic inserts,
      trade.delivers_iff_filed sound orderly traffic inserts]
    simp [Classical.or_iff_not_imp_left]

end Step

section Run

variable (config : Buffer.Config) (ms : List (Move κ))

theorem deliveredIn_iff :
    (ofConfig config).DeliveredIn ms order ↔ (ofConfig config).readers ms order ≠ 0 := by
  induction ms using List.reverseRecOn with
  | nil =>
    refine iff_of_false ?_ (not_not.mpr rfl)
    rintro ⟨before, m, after, split, -⟩
    simp at split
  | append_singleton past m ih =>
    obtain ⟨f, outcome, shows⟩ := ((ofConfig config).run past).step_explained m
    have delivers : ((ofConfig config).run past).Delivers m order ↔
        ((ofConfig config).run past).readersBy m order ≠ 0 :=
      (outcome.trade shows.answer).delivers_iff outcome (run_sound config past)
        (run_orderly (Buffer.ofConfig_orderly config) past) (run_awaited config past) shows.traffic
    rw [deliveredIn_snoc, readers_snoc, ih, delivers]
    omega

theorem readers_unissued (unissued : ((ofConfig config).run ms).buffer.nextOrder ≤ order) :
    (ofConfig config).readers ms order = 0 := by
  by_contra some
  exact (delivered_lt config ((deliveredIn_iff config ms).mpr some)).not_ge unissued

/-- What holds of a counter and a number of readers when a block is put, and goes
on to hold with each request that is served, holds of every entry after the run. -/
theorem run_counter {P : Nat → Nat → Prop} (filed : ∀ n, P n n)
    (served : ∀ before m after e, ms = before ++ m :: after →
      ((ofConfig config).run before).servedFrom? m = some e →
      P e.deliveries ((ofConfig config).readers before e.order) →
      P e.afterRead.deliveries ((ofConfig config).readers before e.order + 1))
    {e : Entry} (listed : (name, e) ∈ ((ofConfig config).run ms).buffer.entries.toList) :
    P e.deliveries ((ofConfig config).readers ms e.order) := by
  induction ms using List.reverseRecOn generalizing name e with
  | nil => contradiction
  | append_singleton past m ih =>
    have earlier {name : Name} {e : Entry}
        (listed : (name, e) ∈ ((ofConfig config).run past).buffer.entries.toList) :
        P e.deliveries ((ofConfig config).readers past e.order) :=
      ih (fun before m' after e split => served before m' (after ++ [m]) e (by rw [split]; simp))
        listed
    obtain ⟨f, outcome, shows⟩ := ((ofConfig config).run past).step_explained m
    rw [run_snoc, shows.traffic] at listed
    rw [readers_snoc]
    cases (outcome.trade shows.answer).counted outcome (run_sound config past)
      (run_orderly (Buffer.ofConfig_orderly config) past) (run_awaited config past)
      shows.traffic (run_balanced config past) listed with
    | filed number count =>
      -- nobody has had the block before it was put
      rw [readers_unissued config past number.ge, Nat.zero_add, ← count]
      exact filed _
    | stays there nobody =>
      rw [nobody]
      exact earlier there
    | @served e there source after reader =>
      have same : e.afterRead.order = e.order := rfl
      rw [after, same, reader]
      exact served past m [] e rfl source (earlier there)

theorem readers_modEq {e : Entry}
    (listed : (name, e) ∈ ((ofConfig config).run ms).buffer.entries.toList) :
    e.deliveries ≡ (ofConfig config).readers ms e.order [MOD UInt32.size] := by
  refine run_counter config ms (fun n => Nat.ModEq.refl n) ?_ listed
  intro _ _ _ e _ _ same
  exact (Nat.mod_modEq _ _).trans (same.add_right 1)

/-- An entry that counts as unclaimed has had no reader, or a multiple of 2^32 of them. -/
theorem dvd_readers_of_unread {e : Entry}
    (unread : e ∈ ((ofConfig config).run ms).buffer.unread) :
    UInt32.size ∣ (ofConfig config).readers ms e.order := by
  obtain ⟨⟨name, listed⟩, zero⟩ := Buffer.mem_unread.mp unread
  have same := readers_modEq config ms listed
  rw [zero] at same
  exact (Nat.modEq_zero_iff_dvd).mp same.symm

theorem deliveries_eq_readers (fits : ∀ before m after e, ms = before ++ m :: after →
      ((ofConfig config).run before).servedFrom? m = some e →
      e.deliveries = (ofConfig config).readers before e.order → e.deliveries + 1 < UInt32.size)
    {e : Entry} (listed : (name, e) ∈ ((ofConfig config).run ms).buffer.entries.toList) :
    e.deliveries = (ofConfig config).readers ms e.order := by
  refine run_counter config ms (fun n => rfl) ?_ listed
  intro before m after e split source same
  have less := fits before m after e split source same
  rw [← same]
  exact Nat.mod_eq_of_lt less

/-- A block that has had a reader never counts as unclaimed again, and no request
makes the counter of its entry overflow. -/
structure Remembers (start : Traffic κ) (ms : List (Move κ)) : Prop where
  delivered : ∀ before after, ms = before ++ after → ∀ e ∈ (start.run before).buffer.unread,
    ¬start.DeliveredIn before e.order
  fits : ∀ before m after e, ms = before ++ m :: after →
    (start.run before).servedFrom? m = some e → e.deliveries + 1 < UInt32.size

/-- No request makes the readers of a block as many as the counter has values. -/
def FewReaders (start : Traffic κ) (ms : List (Move κ)) : Prop :=
  ∀ before m after e, ms = before ++ m :: after → (start.run before).servedFrom? m = some e →
    start.readers before e.order + 1 < UInt32.size

theorem FewReaders.remembers (few : (ofConfig config).FewReaders ms) :
    (ofConfig config).Remembers ms := by
  have exact {before after : List (Move κ)} (split : ms = before ++ after) {name : Name}
      {e : Entry} (listed : (name, e) ∈ ((ofConfig config).run before).buffer.entries.toList) :
      e.deliveries = (ofConfig config).readers before e.order := by
    refine deliveries_eq_readers config before ?_ listed
    intro first m rest e inside source same
    rw [same]
    exact few first m (rest ++ after) e (by rw [split, inside]; simp) source
  constructor
  case delivered =>
    intro before after split e unread delivered
    obtain ⟨⟨name, listed⟩, zero⟩ := Buffer.mem_unread.mp unread
    refine (deliveredIn_iff config before).mp delivered ?_
    rw [← exact split listed, zero]
  case fits =>
    intro before m after e split source
    obtain ⟨name, listed⟩ := listed_of_servedFrom? source
    rw [exact split listed]
    exact few before m after e split source

theorem Remembers.fewReaders (remembers : (ofConfig config).Remembers ms) :
    (ofConfig config).FewReaders ms := by
  intro before m after e split source
  obtain ⟨name, listed⟩ := listed_of_servedFrom? source
  have exact : e.deliveries = (ofConfig config).readers before e.order := by
    refine deliveries_eq_readers config before ?_ listed
    intro first m' rest e inside source _
    exact remembers.fits first m' (rest ++ m :: after) e (by rw [split, inside]; simp) source
  rw [← exact]
  exact remembers.fits before m after e split source

/-- Blocks that have had a reader are remembered as such exactly as long as no
request is the reader that makes their number 2^32. -/
theorem remembers_iff : (ofConfig config).Remembers ms ↔ (ofConfig config).FewReaders ms :=
  ⟨Remembers.fewReaders config ms, FewReaders.remembers config ms⟩

/-- In best-effort mode no block has a second reader that is served from the buffer. -/
theorem remembers_of_bestEffort (mode : config.mode = .bestEffort) :
    (ofConfig config).Remembers ms := by
  have unread {past : List (Move κ)} {m : Move κ} {e : Entry}
      (source : ((ofConfig config).run past).servedFrom? m = some e) : e.deliveries = 0 := by
    obtain ⟨f, outcome, shows⟩ := ((ofConfig config).run past).step_explained m
    obtain ⟨_, _, _, -, -, available, -⟩ :=
      (outcome.trade shows.answer).of_servedFrom? (run_sound config past) source
    have best : ((ofConfig config).run past).buffer.bestEffort = true := by
      rw [Buffer.bestEffort, run_config, mode]
      rfl
    exact Buffer.unread_of_available best available
  have exact {past : List (Move κ)} {name : Name} {e : Entry}
      (listed : (name, e) ∈ ((ofConfig config).run past).buffer.entries.toList) :
      e.deliveries = (ofConfig config).readers past e.order := by
    refine deliveries_eq_readers config past ?_ listed
    intro before m after e _ source _
    rw [unread source]
    decide
  apply FewReaders.remembers
  intro before m after e _ source
  obtain ⟨name, listed⟩ := listed_of_servedFrom? source
  rw [← exact listed, unread source]
  decide

theorem run_nextId_le : ((ofConfig config).run ms).buffer.nextId ≤ ms.length := by
  induction ms using List.reverseRecOn with
  | nil => exact Nat.le_refl _
  | append_singleton past m ih =>
    obtain ⟨f, outcome, shows⟩ := ((ofConfig config).run past).step_explained m
    have consistent := (run_sound config past).buffer
    have next := (outcome.change consistent).nextId_le_succ consistent
    rw [run_snoc, shows.traffic, List.length_append]
    exact next.trans (Nat.succ_le_succ ih)

theorem begun_of_servedFrom? {e : Entry}
    (source : ((ofConfig config).run ms).servedFrom? m = some e) : 0 < ms.length := by
  obtain ⟨name, listed⟩ := listed_of_servedFrom? source
  apply List.length_pos_iff.mpr
  rintro rfl
  contradiction

theorem readers_le : (ofConfig config).readers ms order ≤ ms.length - 1 := by
  induction ms using List.reverseRecOn with
  | nil => exact Nat.le_refl _
  | append_singleton past m ih =>
    rw [readers_snoc, List.length_append, List.length_singleton, Nat.add_sub_cancel]
    cases inserts : ((ofConfig config).run past).inserts? m with
    | some block =>
      rw [readersBy_of_inserts inserts]
      split
      · rename_i number
        have waiting := ((run_sound config past).buffer.pending_length_le).trans
          (run_nextId_le config past)
        rw [readers_unissued config past number.ge, Nat.zero_add]
        exact (List.length_filter_le _ _).trans waiting
      · omega
    | none =>
      rw [readersBy_of_served inserts]
      split
      · rename_i served
        obtain ⟨e, source, -⟩ := Option.map_eq_some_iff.mp served
        have begun := begun_of_servedFrom? config past source
        omega
      · omega

/-- A run of at most 2^32 moves forgets no block. -/
theorem remembers_of_short (short : ms.length ≤ UInt32.size) :
    (ofConfig config).Remembers ms := by
  apply FewReaders.remembers
  intro before m after e split source
  have begun := begun_of_servedFrom? config before source
  have most : (ofConfig config).readers before e.order ≤ before.length - 1 :=
    readers_le config before
  rw [split, List.length_append, List.length_cons] at short
  omega

end Run

structure Lone (t : Traffic κ) (e : Entry) : Prop where
  sound : t.Sound
  free : t.calls = []
  phase : t.buffer.phase ≠ .closed
  persistent : t.buffer.bestEffort = false
  entries : t.buffer.entries.toList = [(e.block.name, e)]

section Lone

variable {e : Entry} (lone : t.Lone e)

include lone

theorem Lone.call? (who : κ) : t.call? who = none := by
  rw [Traffic.call?, lone.free]
  rfl

omit [DecidableEq κ] in
theorem Lone.unread : t.buffer.unread = if e.deliveries = 0 then [e] else [] := by
  rw [Buffer.unread, Table.values, lone.entries, List.map_singleton, List.filter_singleton]
  simp

omit [DecidableEq κ] in
theorem Lone.take? {interest : Interest} (accepts : interest.accepts e.block.name = true) :
    t.buffer.take? interest = some (e.block,
      { t.buffer with entries := t.buffer.entries.insert e.block.name e.afterRead }) := by
  have listed : (e.block.name, e) ∈ t.buffer.entries.toList := by simp [lone.entries]
  have available : t.buffer.isAvailable interest e = true := by
    simp [Buffer.isAvailable, accepts, lone.persistent]
  cases taken : t.buffer.take? interest with
  | none =>
    have nothing := (Buffer.take?_eq_none lone.sound.buffer).mp taken _ e listed
    rw [available] at nothing
    contradiction
  | some found =>
    obtain ⟨e', there, -, block, buffer⟩ := Buffer.take?_eq_some lone.sound.buffer taken
    rw [lone.entries, List.mem_singleton] at there
    obtain rfl := (Prod.mk.inj there).2
    exact congrArg some (Prod.ext block buffer)

theorem Lone.served (who : κ) {interest : Interest} (timeout : Nat)
    (accepts : interest.accepts e.block.name = true) :
    t.servedFrom? (.request who interest timeout) = some e ∧
      (t.step (.request who interest timeout)).traffic.Lone e.afterRead := by
  have turn := step_request_taken (lone.call? who) lone.phase timeout (lone.take? accepts)
  have after := (finish_shows t _ _ _).traffic.symm.trans (congrArg Turn.traffic turn.symm)
  have listed : (e.block.name, e) ∈ t.buffer.entries.toList := by simp [lone.entries]
  constructor
  · refine servedFrom?_of_listed listed rfl ?_
    rw [returns?, turn, (finish_shows _ _ _ _).answer]
    rfl
  · constructor
    case sound => exact step_sound lone.sound _
    case free =>
      rw [← after, Effect.traffic, lone.free]
      rfl
    case phase =>
      rw [← after]
      exact lone.phase
    case persistent =>
      rw [← after]
      exact lone.persistent
    case entries =>
      rw [← after]
      show Table.place e.block.name e.afterRead t.buffer.entries.toList =
        [(e.block.name, e.afterRead)]
      simp [lone.entries, Table.place]

theorem Lone.run (who : κ) {interest : Interest} (timeout n : Nat)
    (accepts : interest.accepts e.block.name = true) (below : e.deliveries < UInt32.size) :
    t.readers (List.replicate n (.request who interest timeout)) e.order = n ∧
      (t.run (List.replicate n (.request who interest timeout))).Lone
        { e with deliveries := (e.deliveries + n) % UInt32.size } := by
  induction n generalizing t e with
  | zero =>
    refine ⟨rfl, ?_⟩
    rw [Nat.add_zero, Nat.mod_eq_of_lt below]
    exact lone
  | succ n ih =>
    obtain ⟨source, next⟩ := lone.served who timeout accepts
    have inserts : t.inserts? (.request who interest timeout) = none := by
      rw [inserts?]
      split <;> rfl
    have reader : t.readersBy (.request who interest timeout) e.order = 1 := by
      rw [readersBy_of_served inserts, source]
      exact if_pos rfl
    obtain ⟨count, last⟩ := ih next accepts (Nat.mod_lt _ (by decide))
    have sum : (e.afterRead.deliveries + n) % UInt32.size =
        (e.deliveries + (n + 1)) % UInt32.size := by
      rw [Entry.afterRead, Nat.mod_add_mod, Nat.add_assoc, Nat.add_comm 1]
    rw [List.replicate_succ]
    constructor
    · show t.readersBy _ e.order + _ = n + 1
      rw [reader, Nat.add_comm]
      exact congrArg (· + 1) count
    · rw [← sum]
      exact last

theorem Lone.close_answer (who : κ) :
    (t.step (.close who)).answer = some (.ok (.report ⟨t.buffer.unclaimed, false, 0⟩)) := by
  have mode : (t.buffer.config.mode == .bestEffort) = false := lone.persistent
  rw [step, begin_free (lone.call? who), beginClose, if_neg lone.phase]
  simp [hearAll, hear, Buffer.bestEffort, Buffer.beginDrain, mode, endClose, finish,
    Buffer.unclaimed]

end Lone

def rereading (n : Nat) : List (Move Nat) :=
  .put 0 (letterBlock 97) :: List.replicate n (.request 1 (.ofName (letterBlock 97).name) 0)

theorem letter_accepts :
    (Interest.ofName (letterBlock 97).name).accepts (letterBlock 97).name = true := by
  decide +kernel

theorem lone_of_put :
    ((ofConfig { mode := .persistent }).run [.put 0 (letterBlock 97)] : Traffic Nat).Lone
      ⟨letterBlock 97, 0, 0⟩ where
  sound := run_sound _ _
  free := by decide +kernel
  phase := by decide +kernel
  persistent := by decide +kernel
  entries := by decide +kernel

/-- The counter after n requests. The run that matters is too long to be computed,
so it is one case of a statement about all n. -/
theorem rereading_lone (n : Nat) :
    (ofConfig { mode := .persistent }).readers (rereading n) 0 = n ∧
      ((ofConfig { mode := .persistent }).run (rereading n)).Lone
        ⟨letterBlock 97, 0, n % UInt32.size⟩ := by
  have put : (ofConfig { mode := .persistent }).readers [.put 0 (letterBlock 97)] 0 = 0 :=
    Nat.le_zero.mp (readers_le _ _)
  obtain ⟨count, last⟩ := lone_of_put.run 1 0 n letter_accepts (by decide)
  rw [Nat.zero_add] at last
  refine ⟨?_, last⟩
  rw [rereading, ← List.singleton_append, readers_append, put, Nat.zero_add]
  exact count

/-- The last of 2^32 requests for a block makes its counter zero: nobody seems to
have had the block, and closing reports it as unclaimed. -/
theorem reread_forgotten :
    let start : Traffic Nat := ofConfig { mode := .persistent }
    let ms := rereading UInt32.size
    (start.run (rereading (UInt32.size - 1))).servedFrom?
        (.request 1 (.ofName (letterBlock 97).name) 0) =
      some ⟨letterBlock 97, 0, UInt32.size - 1⟩ ∧
      start.readers ms 0 = UInt32.size ∧ start.DeliveredIn ms 0 ∧
      (start.run ms).buffer.unread = [⟨letterBlock 97, 0, 0⟩] ∧
      ((start.run ms).step (.close 0)).answer = some (.ok (.report ⟨1, false, 0⟩)) ∧
      ¬start.Remembers ms := by
  intro start ms
  have last := ((rereading_lone (UInt32.size - 1)).2.served 1 0 letter_accepts).1
  obtain ⟨count, lone⟩ := rereading_lone UInt32.size
  rw [Nat.mod_self] at lone
  have delivered : start.DeliveredIn ms 0 := by
    refine (deliveredIn_iff _ _).mpr ?_
    rw [count]
    decide
  have unread : (start.run ms).buffer.unread = [⟨letterBlock 97, 0, 0⟩] := lone.unread
  have answer := lone.close_answer 0
  rw [Buffer.unclaimed_eq_length, unread] at answer
  refine ⟨last, count, delivered, unread, answer, ?_⟩
  intro remembers
  have counted : ⟨letterBlock 97, 0, 0⟩ ∈ (start.run ms).buffer.unread := by simp [unread]
  exact remembers.delivered ms [] (List.append_nil ms).symm _ counted delivered

end Traffic

end NamedContent
