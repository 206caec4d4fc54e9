import Mathlib
import NamedContent.Proofs.Buffer.Dispatch
import NamedContent.Proofs.Traffic.CopiedOnly
import NamedContent.Proofs.Traffic.Registry
import NamedContent.Proofs.Traffic.Serving
import NamedContent.Proofs.Traffic.Waiting

/-!
# The queue of a filter over a run

What comes into the queue of a filter is compared with what is put and with what its
holder reads. A filter that is not dropped takes each block of interest that finds room
in its queue, until it is exhausted, and no other. Its holder reads them in order, and
reads what is left when nothing more comes.
-/

set_option autoImplicit false

namespace NamedContent

def Buffer.remaining (b : Buffer) (x : Subscription) : Option Nat :=
  x.limit.map fun limit => max limit 1 - b.received x

def Buffer.Reading.block? : Reading → Option Block
  | .block found => some found
  | _ => none

namespace Traffic

variable {κ : Type}

def Move.looks (id : Nat) : Move κ → Bool
  | .read feed => feed = id
  | _ => false

variable [DecidableEq κ]

def along {α : Type} (g : Traffic κ → Move κ → List α) (t : Traffic κ) : List (Move κ) → List α
  | [] => []
  | m :: rest => g t m ++ (t.step m).traffic.along g rest

theorem along_append {α : Type} (g : Traffic κ → Move κ → List α) (t : Traffic κ)
    (ms rest : List (Move κ)) : t.along g (ms ++ rest) = t.along g ms ++ (t.run ms).along g rest := by
  induction ms generalizing t with
  | nil => rfl
  | cons m ms ih =>
    rw [List.cons_append, along, ih, along, List.append_assoc]
    rfl

def readings (id : Nat) (t : Traffic κ) (m : Move κ) : List Buffer.Reading :=
  match m, (t.step m).answer with
  | .read feed, some (.ok (.reading reading)) => if feed = id then [reading] else []
  | _, _ => []

def receives (id : Nat) (t : Traffic κ) (m : Move κ) : List Block :=
  (t.readings id m).filterMap Buffer.Reading.block?

def delivers (id : Nat) (t : Traffic κ) (m : Move κ) : List Block :=
  ((t.step m).traffic.buffer.queue id).drop (t.buffer.queue id).length

/-- The block of interest that the move puts into the buffer, with the number of blocks
that are then unread in the queue of the filter. -/
def offers (id : Nat) (interest : Interest) (t : Traffic κ) (m : Move κ) : List (Block × Nat) :=
  ((t.inserts? m).toList.filter fun block => interest.accepts block.name).map fun block =>
    (block, (t.buffer.queue id).length)

/-- The blocks that come while fewer than so many are unread. -/
def fitting (places : Nat) (offers : List (Block × Nat)) : List Block :=
  (offers.filter fun offer => offer.2 < places).map Prod.fst

def upTo {α : Type} : Option Nat → List α → List α
  | none, l => l
  | some limit, l => l.take limit

theorem upTo_nil {α : Type} (limit : Option Nat) : upTo limit ([] : List α) = [] := by
  cases limit
  · rfl
  · exact List.take_nil

theorem upTo_append {α : Type} (limit : Option Nat) (received : Nat) {first : List α}
    (single : first.length ≤ 1) (later : List α) :
    let taken := if limit.any fun n => max n 1 ≤ received then [] else first
    taken ++ upTo (limit.map fun n => max n 1 - (received + taken.length)) later =
      upTo (limit.map fun n => max n 1 - received) (first ++ later) := by
  cases limit with
  | none => rfl
  | some n =>
    by_cases full : max n 1 ≤ received
    · simp only [Option.any_some, full, decide_true, if_true, Option.map_some, upTo,
        Nat.sub_eq_zero_of_le full, List.take_zero, List.length_nil, Nat.add_zero, List.append_nil]
    · have fits : first.length ≤ max n 1 - received := by omega
      simp only [Option.any_some, full, decide_false, Bool.false_eq_true, if_false,
        Option.map_some, upTo, List.take_append, List.take_of_length_le fits, Nat.sub_sub]

theorem fitting_append (places : Nat) (l l' : List (Block × Nat)) :
    fitting places (l ++ l') = fitting places l ++ fitting places l' := by
  rw [fitting, List.filter_append, List.map_append]
  rfl

structure Following (t : Traffic κ) (subs : List Subscription) : Prop where
  sound : t.Sound
  orderly : t.buffer.Orderly
  attended : t.buffer.Attended subs
  apart : t.Apart subs
  awaited : t.Awaited
  nobody : t.buffer.phase = .closed → t.buffer.pending = []

variable {t : Traffic κ} {m : Move κ} {f : Effect κ} {subs : List Subscription} {x : Subscription}
  {id : Nat} {ms : List (Move κ)}

theorem run_following (config : Buffer.Config) (ms : List (Move κ)) :
    ∃ subs, ((ofConfig config).run ms).Following subs := by
  obtain ⟨subs, attended, apart⟩ := run_attended config ms
  exact ⟨subs, run_sound config ms, run_orderly (Buffer.ofConfig_orderly config) ms, attended,
    apart, run_awaited config ms, run_nobody config ms⟩

namespace Following

theorem next (h : t.Following subs) (m : Move κ) :
    (t.step m).traffic.Following (filtersAfter subs m (t.step m).answer) := by
  obtain ⟨f, outcome, shows⟩ := t.step_explained m
  have change := outcome.change h.sound.buffer
  rw [shows.traffic, shows.answer]
  exact {
    sound := outcome.sound h.sound _
    orderly := change.orderly h.orderly
    attended := outcome.attended h.sound h.attended h.apart
    apart := outcome.apart h.sound h.attended h.apart
    awaited := outcome.awaited (outcome.trade shows.answer) h.sound h.awaited
    nobody := change.nobody h.sound.buffer h.nobody }

omit [DecidableEq κ] in
theorem gone_iff (h : t.Following subs) (hx : x ∈ subs) :
    t.buffer.Gone x.id ↔ t.buffer.phase = .closed ∨ t.buffer.exhausted x = true := by
  constructor
  · rintro ⟨-, nobody⟩
    by_contra! going
    have stands : (t.buffer.registration x).demand ≠ .once := nofun
    have still : t.buffer.exhausted x = false := Bool.eq_false_iff.mpr going.2
    exact nobody _ ((h.attended.standing going.1 _ stands).mpr ⟨x, hx, still, rfl⟩) rfl
  · intro ended
    refine ⟨h.attended.issued x hx, fun w waits same => ?_⟩
    by_cases once : w.demand = .once
    · obtain ⟨who, deadline, listed⟩ := h.awaited w waits once
      exact h.apart _ _ _ _ listed x hx same.symm
    · have going : t.buffer.phase ≠ .closed := by
        intro closed
        rw [h.nobody closed] at waits
        contradiction
      obtain ⟨y, hy, still, rfl⟩ := (h.attended.standing going w once).mp waits
      obtain rfl := h.attended.same hy hx same
      rw [still] at ended
      exact ended.elim going Bool.false_ne_true

end Following

theorem accepting_of_inserts {block : Block} (inserts : t.inserts? m = some block) :
    t.buffer.phase = .accepting := by
  obtain ⟨f, outcome, shows⟩ := t.step_explained m
  obtain ⟨-, tried, -⟩ := (outcome.trade shows.answer).filed inserts
  exact (Buffer.tryInsert_filed tried).1

theorem Outcome.queue_aside (outcome : t.Outcome m f) (answer : (t.step m).answer = f.answer)
    (sound : t.Sound) (nothing : t.inserts? m = none) (issued : id < t.buffer.nextId)
    (unread : m ≠ .read id) (kept : m ≠ .unsubscribe id) :
    f.buffer.queue id = t.buffer.queue id := by
  have room {b : Buffer} {block : Block} (tried : t.buffer.tryInsert block = .full b) :
      b.queue id = t.buffer.queue id := by
    obtain ⟨rfl, -⟩ := Buffer.tryInsert_full tried
    obtain ⟨entries, eq⟩ := t.buffer.makeRoom_eq block.name
    rw [eq]
    rfl
  cases outcome with
  | filed puts tried =>
    rw [puts.inserts? tried] at nothing
    contradiction
  | overfull puts tried | blocked puts tried => exact room tried
  | served free phase taken =>
    obtain ⟨_, -, -, -, rfl⟩ := Buffer.take?_eq_some sound.buffer taken
    rfl
  | missed | gaveUp | cancelledRequest =>
    exact congrFun (Buffer.queue_congr (Buffer.forget_feeds _ _)) id
  | removeNamespace name =>
    obtain ⟨namespaces, eq⟩ := t.buffer.removeNamespace_eq name
    show (t.buffer.removeNamespace name).1.queue id = _
    rw [eq]
    rfl
  | removed found =>
    obtain rfl := Buffer.remove?_eq_some found
    rfl
  | @subscribed interest limit _ opened =>
    obtain ⟨-, rfl⟩ := Buffer.subscribe?_eq_some opened
    exact Buffer.opened_queue interest limit issued.ne
  | read feed => exact Buffer.readFeed_other fun same => unread (congrArg _ same.symm)
  | unsubscribed feed => exact Buffer.dropFeed_other fun same => kept (congrArg _ same.symm)
  | _ => rfl

/-- What becomes of the queue of an open filter by a move. -/
inductive FeedStep (t : Traffic κ) (m : Move κ) (x : Subscription) (queue : List Block) : Prop where
  | read {block : Block} (move : m = .read x.id) (unread : t.buffer.queue x.id = block :: queue)
  | dry (move : m = .read x.id) (unread : t.buffer.queue x.id = []) (same : queue = [])
  | takes {block : Block} (inserts : t.inserts? m = some block)
      (accepts : x.interest.accepts block.name = true)
      (room : (t.buffer.queue x.id).length < max t.buffer.config.filterQueue 1)
      (going : t.buffer.exhausted x = false) (more : queue = t.buffer.queue x.id ++ [block])
  | passes {block : Block} (inserts : t.inserts? m = some block)
      (unfit : x.interest.accepts block.name = true →
        (t.buffer.queue x.id).length < max t.buffer.config.filterQueue 1 →
        t.buffer.exhausted x = true) (same : queue = t.buffer.queue x.id)
  | aside (nothing : t.inserts? m = none) (unread : m ≠ .read x.id)
      (same : queue = t.buffer.queue x.id)

theorem Following.feedStep (h : t.Following subs) (hx : x ∈ subs) (kept : m ≠ .unsubscribe x.id) :
    t.FeedStep m x ((t.step m).traffic.buffer.queue x.id) := by
  obtain ⟨f, outcome, shows⟩ := t.step_explained m
  have after : (t.step m).traffic.buffer = f.buffer := congrArg Traffic.buffer shows.traffic
  cases inserts : t.inserts? m with
  | some block =>
    obtain ⟨-, tried, -⟩ := (outcome.trade shows.answer).filed inserts
    have going : t.buffer.phase ≠ .closed := by
      rw [accepting_of_inserts inserts]
      nofun
    have watches := h.attended.mem_watchers going hx block
    by_cases watcher : x.id ∈ (t.buffer.watchers block).map (·.id)
    · obtain ⟨accepts, room, still⟩ := watches.mp watcher
      exact .takes inserts accepts room still (after ▸ h.orderly.filed_takes tried watcher)
    · refine .passes inserts (fun accepts room => ?_) (after ▸ h.orderly.filed_passes tried watcher)
      by_contra going
      exact watcher (watches.mpr ⟨accepts, room, Bool.eq_false_iff.mpr going⟩)
  | none =>
    by_cases read : m = .read x.id
    · subst read
      have after : (t.step (.read x.id)).traffic.buffer = (t.buffer.readFeed x.id).1 := rfl
      rw [after]
      cases unread : t.buffer.queue x.id with
      | nil =>
        obtain ⟨feed, found⟩ := h.attended.feed? hx
        rw [Buffer.readFeed_nil found unread]
        exact .dry rfl unread unread
      | cons block rest =>
        rw [(Buffer.readFeed_cons unread).2]
        exact .read rfl unread
    · rw [after]
      exact .aside inserts read (outcome.queue_aside shows.answer h.sound inserts
        (h.attended.issued x hx) read kept)

theorem readings_of_read (t : Traffic κ) (id : Nat) :
    t.readings id (.read id) = [(t.buffer.readFeed id).2] := if_pos rfl

theorem readings_of_other (unread : m ≠ .read id) : t.readings id m = [] := by
  cases m with
  | read feed => exact if_neg fun same => unread (congrArg _ same)
  | _ => rfl

theorem offers_of_none (nothing : t.inserts? m = none) (id : Nat) (interest : Interest) :
    t.offers id interest m = [] := by
  rw [offers, nothing]
  rfl

theorem receives_of_other (unread : m ≠ .read id) : t.receives id m = [] := by
  rw [receives, readings_of_other unread]
  rfl

theorem fitting_offers {block : Block} (inserts : t.inserts? m = some block) (id : Nat)
    (interest : Interest) (places : Nat) : fitting places (t.offers id interest m) =
      if interest.accepts block.name = true ∧ (t.buffer.queue id).length < places then [block]
      else [] := by
  rw [fitting, offers, inserts, Option.toList_some, List.filter_singleton]
  by_cases accepts : interest.accepts block.name = true
  · by_cases room : (t.buffer.queue id).length < places <;> simp [accepts, room]
  · simp [accepts]

theorem length_fitting_offers_le (t : Traffic κ) (m : Move κ) (id : Nat) (interest : Interest)
    (places : Nat) : (fitting places (t.offers id interest m)).length ≤ 1 := by
  cases inserts : t.inserts? m with
  | none =>
    rw [offers_of_none inserts]
    exact Nat.zero_le _
  | some block =>
    rw [fitting_offers inserts]
    split
    · exact le_rfl
    · exact Nat.zero_le _

theorem ne_read_of_inserts {block : Block} (inserts : t.inserts? m = some block) (id : Nat) :
    m ≠ .read id := by
  rintro rfl
  contradiction

omit [DecidableEq κ] in
theorem looks_iff : m.looks id = true ↔ m = .read id := by
  cases m <;> simp [Move.looks]

namespace Following

section Step

variable (h : t.Following subs) (hx : x ∈ subs) (kept : m ≠ .unsubscribe x.id)
include h hx kept

theorem step_balance : t.receives x.id m ++ (t.step m).traffic.buffer.queue x.id =
    t.buffer.queue x.id ++ t.delivers x.id m := by
  rw [delivers]
  cases h.feedStep hx kept with
  | @read block move unread =>
    subst move
    rw [receives, readings_of_read, (Buffer.readFeed_cons unread).1, unread]
    simp [Buffer.Reading.block?]
  | dry move unread same =>
    subst move
    obtain ⟨feed, found⟩ := h.attended.feed? hx
    have nothing : (t.buffer.readFeed x.id).2.block? = none := by
      rw [Buffer.readFeed_nil found unread]
      dsimp only
      split <;> rfl
    rw [receives, readings_of_read, List.filterMap_cons_none nothing, same, unread]
    rfl
  | takes inserts _ _ _ more =>
    rw [receives_of_other (ne_read_of_inserts inserts x.id), more]
    simp
  | passes inserts _ same =>
    rw [receives_of_other (ne_read_of_inserts inserts x.id), same]
    simp
  | aside _ unread same =>
    rw [receives_of_other unread, same]
    simp

omit h in
theorem step_open : ∃ y ∈ filtersAfter subs m (t.step m).answer, y.id = x.id ∧
    y.interest = x.interest ∧ y.limit = x.limit ∧ y.read = x.read + (t.receives x.id m).length := by
  by_cases read : m = .read x.id
  · subst read
    have answer : (t.step (.read x.id)).answer =
        some (.ok (.reading (t.buffer.readFeed x.id).2)) := rfl
    rw [answer, receives, readings_of_read]
    cases (t.buffer.readFeed x.id).2 with
    | block block =>
      exact ⟨_, List.mem_map_of_mem hx, by simp, by simp, by simp,
        by simp [Subscription.afterRead, Buffer.Reading.block?]⟩
    | waiting | ended => exact ⟨x, hx, rfl, rfl, rfl, rfl⟩
  · rw [receives_of_other read]
    suffices stays : x ∈ filtersAfter subs m (t.step m).answer from ⟨x, stays, rfl, rfl, rfl, rfl⟩
    unfold filtersAfter
    split
    · exact List.mem_append_left _ hx
    · rename_i feed block answer
      have other : x.id ≠ feed := fun same => read (congrArg _ same.symm)
      exact List.mem_map.mpr ⟨x, hx, if_neg other⟩
    · rename_i feed _ answer
      have other : x.id ≠ feed := fun same => kept (congrArg _ same.symm)
      exact List.mem_filter.mpr ⟨hx, by simpa using other⟩
    · exact hx

theorem step_delivers : t.delivers x.id m = if t.buffer.exhausted x then [] else
    fitting (max t.buffer.config.filterQueue 1) (t.offers x.id x.interest m) := by
  have unfed {queue : List Block} (after : (t.step m).traffic.buffer.queue x.id = queue)
      (short : queue.length ≤ (t.buffer.queue x.id).length) : t.delivers x.id m = [] := by
    rw [delivers, after, List.drop_eq_nil_iff]
    exact short
  cases h.feedStep hx kept with
  | read move unread =>
    subst move
    rw [unfed rfl (by rw [unread]; exact Nat.le_succ _), offers_of_none rfl]
    exact (ite_self _).symm
  | dry move _ same =>
    subst move
    rw [unfed same (Nat.zero_le _), offers_of_none rfl]
    exact (ite_self _).symm
  | takes inserts accepts room going more =>
    rw [if_neg (by simp [going]), fitting_offers inserts, if_pos ⟨accepts, room⟩, delivers, more,
      List.drop_left]
  | passes inserts unfit same =>
    rw [unfed same le_rfl, fitting_offers inserts]
    split
    · rfl
    · rename_i going
      exact (if_neg fun fits => going (unfit fits.1 fits.2)).symm
  | aside none _ same =>
    rw [unfed same le_rfl, offers_of_none none]
    exact (ite_self _).symm

end Step

theorem step_received (h : t.Following subs) (hx : x ∈ subs) (kept : m ≠ .unsubscribe x.id) :
    ∃ y ∈ filtersAfter subs m (t.step m).answer, y.id = x.id ∧ y.interest = x.interest ∧
      y.limit = x.limit ∧ (t.step m).traffic.buffer.received y =
        t.buffer.received x + (t.delivers x.id m).length := by
  obtain ⟨y, hy, id, interest, limit, read⟩ := step_open hx kept
  refine ⟨y, hy, id, interest, limit, ?_⟩
  have balance := congrArg List.length (h.step_balance hx kept)
  rw [List.length_append, List.length_append] at balance
  rw [Buffer.received, Buffer.received, id, ← Buffer.length_queue, ← Buffer.length_queue, read]
  omega

end Following

namespace Following

theorem run_received (h : t.Following subs) (hx : x ∈ subs)
    (kept : ∀ m ∈ ms, m ≠ .unsubscribe x.id) :
    ∃ subs' y, (t.run ms).Following subs' ∧ y ∈ subs' ∧ y.id = x.id ∧ y.limit = x.limit ∧
      (t.run ms).buffer.received y = t.buffer.received x + (t.along (delivers x.id) ms).length := by
  induction ms generalizing t subs x with
  | nil => exact ⟨subs, x, h, hx, rfl, rfl, rfl⟩
  | cons m rest ih =>
    obtain ⟨first, others⟩ := List.forall_mem_cons.mp kept
    obtain ⟨y, hy, id, -, limit, received⟩ := h.step_received hx first
    obtain ⟨subs', z, following, hz, id', limit', received'⟩ :=
      ih (h.next m) hy (id.symm ▸ others)
    refine ⟨subs', z, following, hz, id'.trans id, limit'.trans limit, ?_⟩
    rw [run, received', received, id, along, List.length_append, Nat.add_assoc]

/-- What has been read and what is left is what was there and what has come. -/
theorem run_balance (h : t.Following subs) (hx : x ∈ subs)
    (kept : ∀ m ∈ ms, m ≠ .unsubscribe x.id) :
    t.along (receives x.id) ms ++ (t.run ms).buffer.queue x.id =
      t.buffer.queue x.id ++ t.along (delivers x.id) ms := by
  induction ms generalizing t subs x with
  | nil => exact (List.append_nil _).symm
  | cons m rest ih =>
    obtain ⟨first, others⟩ := List.forall_mem_cons.mp kept
    obtain ⟨y, hy, id, -⟩ := h.step_received hx first
    have later := ih (h.next m) hy (id.symm ▸ others)
    rw [id] at later
    rw [along, along, run, List.append_assoc, later, ← List.append_assoc, h.step_balance hx first,
      List.append_assoc]

theorem run_delivers (h : t.Following subs) (hx : x ∈ subs)
    (kept : ∀ m ∈ ms, m ≠ .unsubscribe x.id) :
    t.along (delivers x.id) ms = upTo (t.buffer.remaining x)
      (fitting (max t.buffer.config.filterQueue 1) (t.along (offers x.id x.interest) ms)) := by
  induction ms generalizing t subs x with
  | nil => exact (upTo_nil _).symm
  | cons m rest ih =>
    obtain ⟨first, others⟩ := List.forall_mem_cons.mp kept
    obtain ⟨y, hy, id, interest, limit, received⟩ := h.step_received hx first
    have later := ih (h.next m) hy (id.symm ▸ others)
    have config : (t.step m).traffic.buffer.config = t.buffer.config := by
      obtain ⟨f, outcome, shows⟩ := t.step_explained m
      rw [shows.traffic]
      exact (outcome.change h.sound.buffer).config h.sound.buffer
    have places := length_fitting_offers_le t m x.id x.interest (max t.buffer.config.filterQueue 1)
    rw [id, interest, config, Buffer.remaining, limit, received, h.step_delivers hx first] at later
    rw [along, along, fitting_append, later, h.step_delivers hx first]
    exact upTo_append _ _ places _

theorem step_queue_of_gone (h : t.Following subs) (hx : x ∈ subs) (gone : t.buffer.Gone x.id)
    (kept : m ≠ .unsubscribe x.id) (unread : m ≠ .read x.id) :
    (t.step m).traffic.buffer.queue x.id = t.buffer.queue x.id := by
  cases h.feedStep hx kept with
  | read move | dry move => exact absurd move unread
  | takes inserts _ _ going =>
    obtain closed | exhausted := (h.gone_iff hx).mp gone
    · rw [accepting_of_inserts inserts] at closed
      contradiction
    · rw [going] at exhausted
      contradiction
  | passes _ _ same | aside _ _ same => exact same

/-- When its filter has left the table of waiters, a reader finds what is left in the
queue, and then the end. -/
theorem run_readings (h : t.Following subs) (hx : x ∈ subs) (gone : t.buffer.Gone x.id)
    (kept : ∀ m ∈ ms, m ≠ .unsubscribe x.id) :
    t.along (readings x.id) ms =
      ((t.buffer.queue x.id).take (ms.countP (Move.looks x.id))).map .block ++
        List.replicate (ms.countP (Move.looks x.id) - (t.buffer.queue x.id).length) .ended := by
  induction ms generalizing t subs x with
  | nil => simp [along]
  | cons m rest ih =>
    obtain ⟨first, others⟩ := List.forall_mem_cons.mp kept
    obtain ⟨y, hy, id, -⟩ := h.step_received hx first
    have still : (t.step m).traffic.buffer.Gone y.id := by
      obtain ⟨f, outcome, shows⟩ := t.step_explained m
      rw [id, shows.traffic]
      exact outcome.gone h.sound gone
    have later := ih (h.next m) hy still (id.symm ▸ others)
    rw [id] at later
    rw [along, later, List.countP_cons]
    by_cases read : m = .read x.id
    · subst read
      have after : (t.step (.read x.id)).traffic.buffer = (t.buffer.readFeed x.id).1 := rfl
      rw [readings_of_read, if_pos (looks_iff.mpr rfl), after]
      cases unread : t.buffer.queue x.id with
      | nil =>
        obtain ⟨feed, found⟩ := h.attended.feed? hx
        rw [Buffer.readFeed_nil found unread, gone.waiter?, unread]
        simp [List.replicate_succ]
      | cons block rest =>
        obtain ⟨found, left⟩ := Buffer.readFeed_cons unread
        rw [found, left]
        simp
    · have blind : Move.looks x.id m = false := by
        rw [← Bool.not_eq_true, looks_iff]
        exact read
      rw [readings_of_other read, h.step_queue_of_gone hx gone first read, blind]
      simp

end Following

end Traffic

end NamedContent
