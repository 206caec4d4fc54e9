import Mathlib
import NamedContent.Proofs.Server.Looking

/-!
# Records of interests

For every interest that the server takes there is a record of what has been seen of it:
the block that the buffer has answered with, the endpoint that had the id of the face
then, the blocks that have come into channels, and what has been counted. The interests
in flight are those whose records are open, and the counters of the server are those of
the records that are closed.
-/

set_option autoImplicit false

namespace NamedContent

/-- What has been seen of an interest that the server has taken. -/
structure Record where
  face : String
  interest : Interest
  /-- The block in the answer of the buffer, and the endpoint that the face had then. -/
  answer : Option (Block × Option Nat)
  queued : List (Nat × Block)
  ends : List Ending

namespace Record

def opened (face : String) (interest : Interest) : Record := ⟨face, interest, none, [], []⟩

/-- The record after a look from one world to another, in which the buffer gives this answer. -/
def seen (r : Record) (w w' : World) (answer : Option Block) : Record :=
  { r with
    answer := match answer with
      | some block => some (block, w.network.faces.find? r.face)
      | none => r.answer
    queued := r.queued ++ w.network.arrivals w'.network
    ends := r.ends ++ w.counted.since w'.counted }

/-- An interest ends once or not at all. If it is served, the block that the buffer has
answered with is the only one that has come into a channel, that of the endpoint which
the face had then, and it is one that the interest accepts; else no block has. -/
inductive Fair (r : Record) : Prop where
  | unended (ends : r.ends = []) (queued : r.queued = [])
  | unserved {ending : Ending} (other : ending ≠ .served) (ends : r.ends = [ending])
      (queued : r.queued = [])
  | served {block : Block} {i : Nat} (ends : r.ends = [.served])
      (answer : r.answer = some (block, some i)) (queued : r.queued = [(i, block)])
      (accepts : r.interest.accepts block.name = true)

structure Tracks (r : Record) (channels : Nat) (v : Serve) : Prop where
  face : r.face = v.face
  interest : r.interest = v.interest
  queued : r.queued = []
  ends : r.ends = []
  sending : ∀ i block, v.stage = .sending i block → i < channels ∧
    r.answer = some (block, some i) ∧ v.interest.accepts block.name = true

variable {r : Record} {channels channels' : Nat} {v : Serve}

theorem Tracks.fair (h : r.Tracks channels v) : r.Fair := .unended h.ends h.queued

theorem Tracks.mono (h : r.Tracks channels v) (le : channels ≤ channels') :
    r.Tracks channels' v := by
  refine ⟨h.face, h.interest, h.queued, h.ends, fun i block sending => ?_⟩
  obtain ⟨inside, seen⟩ := h.sending i block sending
  exact ⟨inside.trans_le le, seen⟩

theorem Tracks.opened (channels : Nat) {stage : ServeStage} (fresh : stage = .fresh) (id : Nat)
    (face : String) (interest : Interest) :
    (opened face interest).Tracks channels ⟨id, face, interest, stage⟩ := by
  subst fresh
  exact ⟨rfl, rfl, rfl, rfl, nofun⟩

theorem Fair.ends_length (records : List Record) (fair : ∀ r ∈ records, r.Fair) :
    records.length = (records.countP fun r => r.ends = [.served]) +
      (records.countP fun r => r.ends = [.expired]) +
      (records.countP fun r => r.ends = [.failed]) + records.countP fun r => r.ends = [] := by
  induction records with
  | nil => rfl
  | cons r rest ih =>
    have others := ih fun r' mem => fair r' (List.mem_cons_of_mem _ mem)
    simp only [List.length_cons, List.countP_cons, others]
    cases fair r List.mem_cons_self with
    | unended ends => simp [ends]; omega
    | served ends => simp [ends]; omega
    | @unserved ending other ends =>
      cases ending with
      | served => exact absurd rfl other
      | expired => simp [ends]; omega
      | failed => simp [ends]; omega

end Record

structure Server.Covers (s : Server) (channels : Nat) (records : List Record) : Prop where
  next : s.nextId = records.length
  distinct : (s.inFlight.map Serve.id).Nodup
  tracks : ∀ v ∈ s.inFlight, ∃ r, records[v.id]? = some r ∧ r.Tracks channels v
  unended : s.inFlight.length = records.countP fun r => r.ends = []
  counted : ∀ ending, s.stats.of ending = records.countP fun r => r.ends = [ending]

namespace Server

variable {s s' : Server} {channels channels' : Nat} {records : List Record} {v : Serve}
  {r r' : Record}

theorem covers_ofTimeout (timeout channels : Nat) : (ofTimeout timeout).Covers channels [] where
  next := rfl
  distinct := List.nodup_nil
  tracks := nofun
  unended := rfl
  counted := fun ending => by cases ending <;> rfl

theorem Covers.mono (h : s.Covers channels records) (le : channels ≤ channels') :
    s.Covers channels' records where
  next := h.next
  distinct := h.distinct
  tracks := fun v mem => by
    obtain ⟨r, found, tracks⟩ := h.tracks v mem
    exact ⟨r, found, tracks.mono le⟩
  unended := h.unended
  counted := h.counted

theorem Covers.congr (h : s.Covers channels records) (same : s'.unordered = s.unordered) :
    s'.Covers channels records := by
  obtain ⟨-, stats, inFlight, -, -, -, next⟩ := Server.mk.inj same
  exact ⟨next ▸ h.next, inFlight ▸ h.distinct, inFlight ▸ h.tracks, inFlight ▸ h.unended,
    stats ▸ h.counted⟩

theorem Covers.accept (h : s.Covers channels records) (face : String) (interest : Interest) :
    (s.accept face interest).Covers channels (records ++ [.opened face interest]) where
  next := by
    rw [List.length_append, ← h.next]
    rfl
  distinct := by
    rw [Server.accept, List.map_append]
    refine h.distinct.append (List.nodup_singleton _) fun id old new => ?_
    -- the numbers in flight are those of records, and the new one is not
    obtain ⟨v, mem, rfl⟩ := List.mem_map.mp old
    obtain ⟨r, found, -⟩ := h.tracks v mem
    have below := (List.getElem?_eq_some_iff.mp found).1
    have same : v.id = s.nextId := by simpa using new
    rw [same, h.next] at below
    exact Nat.lt_irrefl _ below
  tracks := fun v mem => by
    rcases List.mem_append.mp mem with old | new
    · obtain ⟨r, found, tracks⟩ := h.tracks v old
      have below := (List.getElem?_eq_some_iff.mp found).1
      exact ⟨r, (List.getElem?_append_left below).trans found, tracks⟩
    · rw [List.mem_singleton.mp new]
      refine ⟨_, ?_, .opened channels rfl _ face interest⟩
      show (records ++ [Record.opened face interest])[s.nextId]? = _
      rw [h.next, List.getElem?_concat_length]
  unended := by
    rw [Server.accept, List.length_append, h.unended, List.countP_append]
    rfl
  counted := fun ending => by
    rw [List.countP_append, ← h.counted]
    rfl

theorem Covers.tracks_set (h : s.Covers channels records) {v' : Serve} (flying : v' ∈ s.inFlight)
    (other : v'.id ≠ v.id) :
    ∃ r, (records.set v.id r')[v'.id]? = some r ∧ r.Tracks channels v' := by
  obtain ⟨r, found, tracks⟩ := h.tracks v' flying
  exact ⟨r, (List.getElem?_set_ne other.symm).trans found, tracks⟩

section Look

variable (h : s.Covers channels records) (flying : v ∈ s.inFlight)
include h flying

theorem Covers.record : ∃ r, ∃ inside : v.id < records.length, records[v.id] = r ∧
    r.Tracks channels v := by
  obtain ⟨r, found, tracks⟩ := h.tracks v flying
  obtain ⟨inside, here⟩ := List.getElem?_eq_some_iff.mp found
  exact ⟨r, inside, here, tracks⟩

theorem Covers.below : v.id < records.length := by
  obtain ⟨r, inside, -⟩ := h.record flying
  exact inside

theorem Covers.setStage {stage : ServeStage} (tracks : r'.Tracks channels { v with stage }) :
    (s.setStage v.id stage).Covers channels (records.set v.id r') := by
  obtain ⟨r, inside, here, before⟩ := h.record flying
  have steady (ends : List Ending) : (records.set v.id r').countP (fun r => r.ends = ends) =
      records.countP fun r => r.ends = ends := by
    have positive : r.ends = ends → 0 < records.countP fun r => r.ends = ends := fun same =>
      List.countP_pos_iff.mpr ⟨r, here ▸ List.getElem_mem inside, by simpa using same⟩
    rw [List.countP_set inside, here]
    simp only [before.ends, tracks.ends, decide_eq_true_eq] at positive ⊢
    split
    · have := positive ‹_›
      omega
    · rfl
  constructor
  · rw [List.length_set]
    exact h.next
  · rw [Server.setStage, List.map_map]
    have ids : (Serve.id ∘ fun v' : Serve => if v'.id = v.id then { v' with stage } else v') =
        Serve.id := by
      funext v'
      rw [Function.comp_apply]
      split <;> rfl
    rw [ids]
    exact h.distinct
  · intro v' mem
    obtain ⟨old, listed, rfl⟩ := List.mem_map.mp mem
    by_cases same : old.id = v.id
    · obtain rfl : old = v := List.inj_on_of_nodup_map h.distinct listed flying same
      rw [if_pos rfl]
      exact ⟨r', by rw [List.getElem?_set, if_pos rfl, if_pos inside], tracks⟩
    · rw [if_neg same]
      exact h.tracks_set listed same
  · rw [Server.setStage, List.length_map, steady]
    exact h.unended
  · intro ending
    rw [steady]
    exact h.counted ending

theorem Covers.finish {ending : Ending} (ends : r'.ends = [ending]) :
    (s.finish v.id ending).Covers channels (records.set v.id r') := by
  obtain ⟨r, inside, here, before⟩ := h.record flying
  constructor
  · rw [List.length_set]
    exact h.next
  · exact h.distinct.sublist (List.filter_sublist.map _)
  · intro v' mem
    obtain ⟨mem, other⟩ := List.mem_filter.mp mem
    exact h.tracks_set mem (by simpa using other)
  · have listed : v.id ∈ s.inFlight.map Serve.id := List.mem_map_of_mem flying
    have fewer : (s.finish v.id ending).inFlight.length = s.inFlight.length - 1 := by
      calc (s.finish v.id ending).inFlight.length
          = ((s.inFlight.map Serve.id).filter (· != v.id)).length := by
            rw [List.filter_map, List.length_map]
            simp [Server.finish, Function.comp_def, bne, beq_eq_decide]
        _ = ((s.inFlight.map Serve.id).erase v.id).length := by
            rw [h.distinct.erase_eq_filter]
        _ = s.inFlight.length - 1 := by
            rw [List.length_erase_of_mem listed, List.length_map]
    rw [fewer, h.unended, List.countP_set inside, here]
    simp [before.ends, ends]
  · intro ending'
    show (s.stats.count ending).of ending' = _
    rw [ServerStats.of_count, h.counted, List.countP_set inside, here]
    simp [before.ends, ends]

end Look

end Server

namespace World

variable {w w' : World} {s : Server} {v : Serve} {moves : List (Traffic.Move Caller)}
  {queued : List (Nat × Block)} {answer : Option Block} {r : Record} {channels : Nat}

theorem Looking.counted (h : w.Looking moves queued s w') : w'.counted = s.stats := by
  obtain ⟨s', running, same⟩ := Option.map_eq_some_iff.mp h.server
  obtain ⟨-, stats, -⟩ := Server.mk.inj same
  rw [World.counted, running]
  exact stats

theorem Looking.seen_kept (answer : Option Block) (tracks : r.Tracks channels v)
    (before : w.counted = s.stats) {stage : ServeStage}
    (h : w.Looking moves [] (s.setStage v.id stage) w') :
    (r.seen w w' answer).queued = [] ∧ (r.seen w w' answer).ends = [] := by
  constructor
  · show r.queued ++ w.network.arrivals w'.network = []
    rw [tracks.queued, h.queued]
    rfl
  · show r.ends ++ w.counted.since w'.counted = []
    rw [tracks.ends, before, h.counted]
    exact ServerStats.since_self _

theorem Looking.seen_ended (answer : Option Block) (tracks : r.Tracks channels v)
    (before : w.counted = s.stats) {ending : Ending}
    (h : w.Looking moves queued (s.finish v.id ending) w') :
    (r.seen w w' answer).queued = queued ∧ (r.seen w w' answer).ends = [ending] := by
  constructor
  · show r.queued ++ w.network.arrivals w'.network = queued
    rw [tracks.queued, h.queued]
    rfl
  · show r.ends ++ w.counted.since w'.counted = [ending]
    rw [tracks.ends, before, h.counted]
    exact ServerStats.since_count _ _

section Answer

variable (tracks : r.Tracks w.network.channels.length v) (placed : w.network.Placed)
  (fits : ∀ block, answer = some block → v.interest.accepts block.name = true)
include tracks placed fits

theorem Heads.seen (w' : World) {i : Nat} {block : Block} (heads : w.Heads v answer i block) :
    i < w.network.channels.length ∧ (r.seen w w' answer).answer = some (block, some i) ∧
      v.interest.accepts block.name = true := by
  obtain ⟨sending, rfl⟩ | ⟨rfl, face⟩ := heads
  · exact tracks.sending i block sending
  · refine ⟨placed _ _ face, ?_, fits block rfl⟩
    show some (block, w.network.faces.find? r.face) = _
    rw [tracks.face, face]

/-- A look leaves the record open as that of the interest, which waits for its block or
for a place in a channel, or closes it. -/
theorem Looked.record (looked : w.Looked s v moves answer w') (running : w.server = some s) :
    (∃ stage, (stage = .requesting ∧ (∀ i block, v.stage ≠ .sending i block) ∨
        ∃ i block, stage = .sending i block) ∧
      w.Looking moves [] (s.setStage v.id stage) w' ∧
      (r.seen w w' answer).Tracks w'.network.channels.length { v with stage }) ∨
    ∃ ending queued, w.Looking moves queued (s.finish v.id ending) w' ∧
      (r.seen w w' answer).ends = [ending] ∧ (r.seen w w' answer).Fair := by
  have before : w.counted = s.stats := by
    rw [World.counted, running]
    rfl
  cases looked with
  | waits unsent looking =>
    obtain ⟨queued, ends⟩ := looking.seen_kept answer tracks before
    exact .inl ⟨_, .inl ⟨rfl, unsent⟩, looking, tracks.face, tracks.interest, queued, ends, nofun⟩
  | holds heads looking =>
    obtain ⟨queued, ends⟩ := looking.seen_kept answer tracks before
    obtain ⟨inside, seen⟩ := heads.seen tracks placed fits w'
    refine .inl ⟨_, .inr ⟨_, _, rfl⟩, looking, tracks.face, tracks.interest, queued, ends, ?_⟩
    intro i block same
    cases same
    exact ⟨inside.trans_le looking.network.channels, seen⟩
  | sent heads looking =>
    obtain ⟨queued, ends⟩ := looking.seen_ended answer tracks before
    obtain ⟨-, seen, accepts⟩ := heads.seen tracks placed fits w'
    refine .inr ⟨_, _, looking, ends, .served ends seen queued ?_⟩
    show r.interest.accepts _ = true
    rwa [tracks.interest]
  | ends unserved looking =>
    obtain ⟨queued, ends⟩ := looking.seen_ended answer tracks before
    exact .inr ⟨_, _, looking, ends, .unserved unserved ends queued⟩

end Answer

end World

end NamedContent
