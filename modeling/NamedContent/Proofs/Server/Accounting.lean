import Mathlib
import NamedContent.Proofs.Segmenter.Rising
import NamedContent.Proofs.Server.Records
import NamedContent.Proofs.Traffic.Asking

/-!
# Every interest is accounted for

Whatever goes on beside the server, and in whichever order it goes on itself, each
interest that it has taken is in flight or counted once, and what is counted as served
is a block that the interest accepts, in the channel of the endpoint that the face had
when the buffer answered.
-/

set_option autoImplicit false

namespace NamedContent

namespace World

def recorded (w : World) (records : List Record) : Occurrence → List Record
  | .take =>
    match w.server, w.network.interests.items with
    | some _, (face, interest) :: _ => records ++ [.opened face interest]
    | _, _ => records
  | .look id left =>
    match w.serve? id with
    | some v => records.modify id fun r => r.seen w (w.lookAt id left) (w.answered? left v)
    | none => records
  | _ => records

/-- The records after a sequence of occurrences. -/
def records (w : World) (before : List Record) : List Occurrence → List Record
  | [] => before
  | o :: rest => (w.occur o).records (w.recorded before o) rest

def Knows (t : Traffic Caller) (a : Account Caller) (v : Serve) : Prop :=
  match v.stage with
  | .fresh => t.call? (.serve v.id) = none
  | .requesting => t.Asks a (.serve v.id) v.interest
  | .sending _ _ => True

/-- What the books rest on: the buffer has seen moves and nothing else, endpoints are those
of channels, and serves from a number on have not come to the buffer yet. -/
structure Grounded (config : Buffer.Config) (w : World) (limit : Nat) : Prop where
  traffic : ∃ ms, w.traffic = (Traffic.ofConfig config).run ms
  placed : w.network.Placed
  unborn : ∀ id, limit ≤ id → w.traffic.call? (.serve id) = none

/-- The books are right: records are fair, the server covers them, what is in flight is
known to the buffer, and before the stream of interests is taken there is nothing. -/
structure Booked (config : Buffer.Config) (w : World) (records : List Record) : Prop
    extends Grounded config w records.length where
  fair : ∀ r ∈ records, r.Fair
  idle : w.network.taken = false → records = [] ∧ w.server = none
  covers : ∀ s, w.server = some s → s.Covers w.network.channels.length records
  knows : ∀ s, w.server = some s →
    ∃ a, w.traffic.Balanced a ∧ ∀ v ∈ s.inFlight, Knows w.traffic a v

variable {config : Buffer.Config} {w w' : World} {log : List Record} {t : Traffic Caller}
  {a : Account Caller} {v : Serve} {s : Server} {ms : List (Traffic.Move Caller)} {limit : Nat}

theorem Knows.run (h : Knows t a v) (others : ∀ m ∈ ms, m.caller? ≠ some (.serve v.id)) :
    Knows (t.run ms) (a.through t ms) v := by
  rw [Knows] at h ⊢
  split at h
  · exact Traffic.run_free h others
  · exact h.run others
  · trivial

theorem Grounded.sound (h : Grounded config w limit) : w.traffic.Sound := by
  obtain ⟨ms, traffic⟩ := h.traffic
  rw [traffic]
  exact Traffic.run_sound config ms

theorem Grounded.balanced (h : Grounded config w limit) : ∃ a, w.traffic.Balanced a := by
  obtain ⟨ms, traffic⟩ := h.traffic
  rw [traffic]
  exact ⟨_, Traffic.run_balanced config ms⟩

theorem Grounded.since (h : Grounded config w limit) {P : Traffic.Move Caller → Prop}
    (since : Since P w w')
    (others : ∀ m, P m → ∀ id, limit ≤ id → m.caller? ≠ some (.serve id)) :
    Grounded config w' limit := by
  obtain ⟨past, traffic⟩ := h.traffic
  obtain ⟨ms, kind, moved⟩ := since.moves
  refine ⟨⟨past ++ ms, ?_⟩, since.network.placed h.placed, fun id new => ?_⟩
  · rw [moved, traffic, Traffic.run_append]
  · rw [moved]
    exact Traffic.run_free (h.unborn id new) fun m mem => others m (kind m mem) id new

theorem ofConfig_booked (config : Buffer.Config) (key : Ed25519.SigningKey) :
    Booked config (World.ofConfig config key) [] where
  traffic := ⟨[], rfl⟩
  placed := nofun
  fair := nofun
  unborn := fun _ _ => rfl
  idle := fun _ => ⟨rfl, rfl⟩
  covers := nofun
  knows := nofun

theorem Booked.taken (h : Booked config w log) (running : w.server = some s) :
    w.network.taken = true := by
  cases untaken : w.network.taken with
  | true => rfl
  | false =>
    have none := (h.idle untaken).2
    rw [running] at none
    contradiction

theorem Booked.aside (h : Booked config w log) (aside : Aside w w') : Booked config w' log := by
  have before {s' : Server} (running : w'.server = some s') :
      ∃ s, w.server = some s ∧ s'.unordered = s.unordered := by
    have same := aside.server
    rw [running] at same
    obtain ⟨s, before, eq⟩ := Option.map_eq_some_iff.mp same.symm
    exact ⟨s, before, eq.symm⟩
  refine ⟨h.toGrounded.since aside.toSince fun m foreign id _ => foreign id, h.fair, ?_, ?_, ?_⟩
  · intro untaken
    obtain ⟨none, stopped⟩ := h.idle (aside.network.untaken untaken)
    have same := aside.server
    rw [stopped] at same
    exact ⟨none, Option.map_eq_none_iff.mp same⟩
  · intro s' running
    obtain ⟨s, before, same⟩ := before running
    exact ((h.covers s before).congr same).mono aside.network.channels
  · intro s' running
    obtain ⟨s, before, same⟩ := before running
    obtain ⟨a, balanced, knows⟩ := h.knows s before
    obtain ⟨-, -, inFlight, -⟩ := Server.mk.inj same
    obtain ⟨ms, foreign, moved⟩ := aside.moves
    rw [moved]
    refine ⟨_, balanced.run h.sound ms, fun v mem => ?_⟩
    exact (knows v (inFlight ▸ mem)).run fun m listed => foreign m listed v.id

theorem Booked.worked (h : Booked config w log) {own : Nat}
    (worked : Worked own Traffic.Move.Foreign w w') : Booked config w' log := h.aside worked.aside

theorem Booked.start (h : Booked config w log) (timeout : Nat) :
    Booked config (Session.startServer w timeout).1 log := by
  rw [Session.startServer, World.startServer]
  cases taken : w.network.taken with
  | true => exact h
  | false =>
    obtain ⟨rfl, -⟩ := h.idle taken
    refine Booked.worked ?_ (Worked.refl.enqueue .server : Worked 0 _ _ _)
    refine ⟨⟨h.traffic, h.placed, h.unborn⟩, h.fair, nofun, ?_, ?_⟩
    · intro s running
      cases running
      exact Server.covers_ofTimeout _ _
    · intro s running
      cases running
      obtain ⟨a, balanced⟩ := h.balanced
      exact ⟨a, balanced, nofun⟩

/-- What a serve below the limit waits for is dropped by moves of its own. -/
theorem abandon_since (below : v.id < limit) :
    Since (fun m => ∀ id, limit ≤ id → m.caller? ≠ some (.serve id)) w (w.abandon v) := by
  rw [abandon]
  split
  · exact .of_same rfl rfl
  · refine ⟨⟨[.cancel (.serve v.id)], ?_, moved_traffic w _⟩, w.moved_network _ ▸ .refl _⟩
    intro m mem id new own
    rw [List.mem_singleton.mp mem] at own
    cases own
    omega
  · rename_i i block _
    have worked : Worked 0 Traffic.Move.Foreign w (w.withdrawBlock i (.serve v.id)) :=
      .withdrawBlock .refl i (.serve v.id)
    exact worked.aside.toSince.mono fun m foreign id _ => foreign id

theorem Booked.stop (h : Booked config w log) : Booked config w.stopServer log := by
  rw [stopServer]
  split
  · exact h
  · rename_i s running
    have each (vs : List Serve) (below : ∀ v ∈ vs, v.id < log.length) (w : World) :
        Since (fun m => ∀ id, log.length ≤ id → m.caller? ≠ some (.serve id)) w
          (vs.foldl abandon w) := by
      induction vs generalizing w with
      | nil => exact .of_same rfl rfl
      | cons v rest ih =>
        exact (abandon_since (below v List.mem_cons_self)).trans
          (ih (fun v' mem => below v' (List.mem_cons_of_mem _ mem)) _)
    have dropped := each s.inFlight (fun v flying => (h.covers s running).below flying) w
    have closes : Worked 0 Traffic.Move.Foreign (s.inFlight.foldl abandon w)
        (s.inFlight.foldl abandon w).closeInterests := .closeInterests .refl
    have closed := dropped.trans (closes.aside.toSince.mono fun m foreign id _ => foreign id)
    have grounded := h.toGrounded.since closed fun m others => others
    refine ⟨⟨grounded.traffic, grounded.placed, grounded.unborn⟩, h.fair, fun untaken => ?_,
      nofun, nofun⟩
    have taken := closed.network.taken (h.taken running)
    cases taken.symm.trans untaken

theorem Booked.accept (h : Booked config w log) (running : w.server = some s) (face : String)
    (interest : Interest) :
    Booked config (w.onServer (·.accept face interest)) (log ++ [.opened face interest]) where
  traffic := h.traffic
  placed := h.placed
  unborn := fun id new => by
    rw [List.length_append] at new
    exact h.unborn id (by omega)
  fair := fun r mem => by
    rcases List.mem_append.mp mem with old | new
    · exact h.fair r old
    · rw [List.mem_singleton.mp new]
      exact .unended rfl rfl
  idle := fun untaken => by
    cases (h.taken running).symm.trans untaken
  covers := fun s' running' => by
    rw [onServer, running] at running'
    cases running'
    exact (h.covers s running).accept face interest
  knows := fun s' running' => by
    rw [onServer, running] at running'
    cases running'
    obtain ⟨a, balanced, knows⟩ := h.knows s running
    refine ⟨a, balanced, fun v mem => ?_⟩
    rcases List.mem_append.mp mem with old | new
    · exact knows v old
    · rw [List.mem_singleton.mp new]
      exact h.unborn _ (h.covers s running).next.ge

theorem Booked.take (h : Booked config w log) :
    Booked config (w.occur .take) (w.recorded log .take) := by
  rw [occur, recorded]
  cases running : w.server with
  | none => exact h
  | some s =>
    rw [if_pos (by rfl), takeInterests]
    cases items : w.network.interests.items with
    | nil =>
      rw [Channel.receive, items]
      exact h
    | cons item rest =>
      rw [Channel.receive, items]
      obtain ⟨face, interest⟩ := item
      dsimp only
      generalize Channel.grant _ = granted
      obtain ⟨interests, woken⟩ := granted
      have woken : Worked 0 Traffic.Move.Foreign w
          ((w.setInterests interests).wakeAll woken.toList) :=
        (Worked.refl.setInterests interests).wakeAll woken.toList
      have same := woken.aside.server
      rw [running] at same
      obtain ⟨s', running', -⟩ := Option.map_eq_some_iff.mp same
      exact (h.worked woken).accept running' face interest

section Look

variable {s' : Server} {r' : Record} {moves : List (Traffic.Move Caller)}
  {queued : List (Nat × Block)} {left : Nat}

theorem mem_of_serve? {id : Nat} (found : w.serve? id = some v) :
    ∃ s, w.server = some s ∧ v ∈ s.inFlight ∧ v.id = id := by
  obtain ⟨s, running, found⟩ := Option.bind_eq_some_iff.mp found
  have same := List.find?_some found
  exact ⟨s, running, List.mem_of_find?_eq_some found, by simpa using same⟩

theorem lookMove?_caller {m : Traffic.Move Caller} (mem : m ∈ (w.lookMove? left v).toList) :
    m.caller? = some (.serve v.id) := by
  rw [lookMove?, Option.mem_toList] at mem
  split at mem
  · cases mem
    rfl
  · split at mem
    · cases mem
    · cases mem
      rfl
  · cases mem

theorem Knows.look (h : Knows w.traffic a v) (sound : w.traffic.Sound)
    (unsent : ∀ i block, v.stage ≠ .sending i block) :
    Knows (w.traffic.run (w.lookMove? left v).toList)
      (a.through w.traffic (w.lookMove? left v).toList) { v with stage := .requesting } := by
  show Traffic.Asks _ _ (Caller.serve v.id) v.interest
  rw [Knows] at h
  rw [lookMove?]
  cases stage : v.stage with
  | sending i block => exact absurd stage (unsent i block)
  | fresh =>
    rw [stage] at h
    exact Traffic.asks_request sound h _
  | requesting =>
    rw [stage] at h
    dsimp only
    split
    · exact h
    · exact h.step fun _ => rfl

theorem Knows.fits (h : Knows w.traffic a v) (sound : w.traffic.Sound)
    (balanced : w.traffic.Balanced a) {block : Block}
    (answer : w.answered? left v = some block) : v.interest.accepts block.name = true := by
  rw [Knows] at h
  rw [answered?, lookMove?] at answer
  cases stage : v.stage with
  | sending i block =>
    rw [stage] at answer
    cases answer
  | fresh =>
    rw [stage] at h answer
    exact Traffic.accepts_of_request sound balanced h (blockOf?_eq_some answer)
  | requesting =>
    rw [stage] at h answer
    dsimp only at answer
    split at answer
    · cases answer
    · exact h.accepts sound balanced (blockOf?_eq_some answer)

theorem Booked.looked (h : Booked config w log) (running : w.server = some s)
    (flying : v ∈ s.inFlight)
    (looking : w.Looking (w.lookMove? left v).toList queued s' w') (fair : r'.Fair)
    (covers : s'.Covers w'.network.channels.length (log.set v.id r'))
    (knows : ∃ a, (w.traffic.run (w.lookMove? left v).toList).Balanced a ∧
      ∀ v' ∈ s'.inFlight, Knows (w.traffic.run (w.lookMove? left v).toList) a v') :
    Booked config w' (log.set v.id r') := by
  have before {s'' : Server} (running' : w'.server = some s'') : s''.unordered = s'.unordered := by
    have same := looking.server
    rw [running'] at same
    exact Option.some.inj same
  have inside : v.id < log.length := (h.covers s running).below flying
  have grounded : Grounded config w' log.length := by
    refine h.toGrounded.since looking.since fun m mem id new own => ?_
    cases (lookMove?_caller mem).symm.trans own
    omega
  constructor
  · rw [List.length_set]
    exact grounded
  · intro r mem
    obtain old | rfl := List.mem_or_eq_of_mem_set mem
    · exact h.fair r old
    · exact fair
  · intro untaken
    cases (h.taken running).symm.trans (looking.network.untaken untaken)
  · intro s'' running'
    exact covers.congr (before running')
  · intro s'' running'
    obtain ⟨-, -, inFlight, -⟩ := Server.mk.inj (before running')
    rw [looking.traffic, inFlight]
    exact knows

theorem Booked.look (h : Booked config w log) (id left : Nat) :
    Booked config (w.occur (.look id left)) (w.recorded log (.look id left)) := by
  rw [occur, recorded]
  cases found : w.serve? id with
  | none =>
    rw [lookAt, found]
    exact h
  | some v =>
    obtain ⟨s, running, flying, rfl⟩ := mem_of_serve? found
    have covers := h.covers s running
    obtain ⟨r, inside, here, tracks⟩ := covers.record flying
    obtain ⟨a, balanced, knows⟩ := h.knows s running
    have looked : w.Looked s v (w.lookMove? left v).toList (w.answered? left v)
        (w.lookAt v.id left) := by
      rw [lookAt, found, running]
      exact look_looked running h.placed fun i block sending => (tracks.sending i block sending).1
    have others (v' : Serve) (flying' : v' ∈ s.inFlight) (other : v'.id ≠ v.id) :
        Knows (w.traffic.run (w.lookMove? left v).toList)
          (a.through w.traffic (w.lookMove? left v).toList) v' :=
      (knows v' flying').run fun m mem own => by
        have same := (lookMove?_caller mem).symm.trans own
        exact other (Caller.serve.inj (Option.some.inj same)).symm
    have balanced' := balanced.run h.sound (w.lookMove? left v).toList
    have modified : (log.modify v.id fun r => r.seen w (w.lookAt v.id left) (w.answered? left v)) =
        log.set v.id (r.seen w (w.lookAt v.id left) (w.answered? left v)) := by
      rw [List.modify_eq_set_getElem?, List.getElem?_eq_getElem inside, here]
      rfl
    dsimp only
    rw [modified]
    obtain ⟨stage, goes, looking, tracks'⟩ | ⟨ending, queued, looking, ends, fair⟩ :=
      looked.record tracks h.placed
        (fun block answer => (knows v flying).fits h.sound balanced answer) running
    · refine h.looked running flying looking tracks'.fair
        ((covers.mono looking.network.channels).setStage flying tracks') ⟨_, balanced', ?_⟩
      intro v' mem
      obtain ⟨old, listed, rfl⟩ := List.mem_map.mp mem
      by_cases same : old.id = v.id
      · obtain rfl : old = v := List.inj_on_of_nodup_map covers.distinct listed flying same
        rw [if_pos rfl]
        obtain ⟨rfl, unsent⟩ | ⟨i, block, rfl⟩ := goes
        · exact (knows _ flying).look h.sound unsent
        · trivial
      · rw [if_neg same]
        exact others old listed same
    · refine h.looked running flying looking fair
        ((covers.mono looking.network.channels).finish flying ends) ⟨_, balanced', ?_⟩
      intro v' mem
      obtain ⟨listed, other⟩ := List.mem_filter.mp mem
      exact others v' listed (by simpa using other)

end Look

theorem Booked.occur (h : Booked config w log) (o : Occurrence) :
    Booked config (w.occur o) (w.recorded log o) := by
  cases o with
  | command n c instant =>
    have begun : Booked config { w with ended := [] } log := h.aside (.of_same rfl rfl rfl)
    cases serves : c.serves with
    | false => exact begun.aside (perform_aside _ n serves)
    | true =>
      cases c with
      | advance ms => cases instant
      | startServer timeout => exact begun.start timeout
      | shutServer => exact begun.stop
      | dropServer => exact begun.stop
      | _ => contradiction
  | resume n => exact h.aside (resumeTask_aside w n)
  | take => exact h.take
  | look id left => exact h.look id left
  | tick ms =>
    have worked : Worked 0 Traffic.Move.Foreign w (w.moved (.tick ms)) :=
      .moved .refl (Traffic.Move.foreign_of_none rfl)
    exact h.worked worked
  | putBack => exact h.aside (fileReturned_aside w)
  | arrange ready woken deferred yielded =>
    refine h.aside ⟨.of_same rfl rfl, ?_⟩
    rw [World.occur, Option.map_map]
    rfl

theorem Booked.course (h : Booked config w log) (os : List Occurrence) :
    Booked config (w.course os) (w.records log os) := by
  induction os generalizing w log with
  | nil => exact h
  | cons o rest ih => exact ih (h.occur o)

theorem steps_booked (config : Buffer.Config) (key : Ed25519.SigningKey) (n : Nat)
    (commands : List Session.Command) :
    ∃ taken, Booked config (Session.steps n (.ofConfig config key) commands).1 taken := by
  obtain ⟨os, course⟩ := follows_steps n (.ofConfig config key) commands
  rw [course]
  exact ⟨_, (ofConfig_booked config key).course os⟩

/-- After all occurrences the interests that a running server has taken are those that it
has counted as served, expired or failed and those in flight. An interest is counted once
at most. One that is counted as served has had one block queued, which it accepts: the
block with which the buffer answered, in the channel that the face had then. Of one that
is in flight, dropped, or counted otherwise, no block has been queued. -/
theorem interests_accounted (config : Buffer.Config) (key : Ed25519.SigningKey)
    (os : List Occurrence) :
    let start := World.ofConfig config key
    let taken := start.records [] os
    (∀ s, (start.course os).server = some s →
      taken.length = s.stats.served + s.stats.expired + s.stats.failed + s.inFlight.length ∧
      (∀ ending, s.stats.of ending = taken.countP fun r => r.ends = [ending]) ∧
      s.inFlight.length = taken.countP fun r => r.ends = []) ∧
    ∀ r ∈ taken,
      r.ends = [] ∧ r.queued = [] ∨
      (r.ends = [.expired] ∨ r.ends = [.failed]) ∧ r.queued = [] ∨
      ∃ block i, r.ends = [.served] ∧ r.answer = some (block, some i) ∧
        r.queued = [(i, block)] ∧ r.interest.accepts block.name = true := by
  intro start taken
  have books : Booked config (start.course os) taken := (ofConfig_booked config key).course os
  refine ⟨fun s running => ?_, fun r mem => ?_⟩
  · have covers := books.covers s running
    refine ⟨?_, covers.counted, covers.unended⟩
    have total := Record.Fair.ends_length taken books.fair
    rw [covers.unended, total]
    have served := covers.counted .served
    have expired := covers.counted .expired
    have failed := covers.counted .failed
    simp only [ServerStats.of] at served expired failed
    omega
  · cases books.fair r mem with
    | unended ends queued => exact .inl ⟨ends, queued⟩
    | @unserved ending other ends queued =>
      refine .inr (.inl ⟨?_, queued⟩)
      cases ending with
      | served => exact absurd rfl other
      | expired => exact .inl ends
      | failed => exact .inr ends
    | served ends answer queued accepts =>
      exact .inr (.inr ⟨_, _, ends, answer, queued, accepts⟩)

/-- Of four interests one is served, one expires, one comes from a face that has gone, and
one is still in flight. -/
def fourInterests : List Occurrence :=
  let plain (label : UInt8) : Session.InterestText := .plain (.exact [⟨[label]⟩]) none
  [.command 0 (.connect "f") rfl, .command 1 (.connect "g") rfl, .command 2 (.startServer 5) rfl,
    .command 3 (.put ⟨.exact [⟨[97]⟩], none, [], []⟩) rfl,
    .command 4 (.express "f" (plain 97)) rfl, .putBack,
    .command 5 (.express "f" (plain 98)) rfl, .putBack,
    .command 6 (.express "g" (plain 97)) rfl, .putBack,
    .take, .take, .take, .look 0 1, .look 1 1, .command 7 (.disconnect "g") rfl, .look 2 1,
    .command 8 (.express "f" (plain 99)) rfl, .tick 5, .look 1 1, .take, .look 3 1]

theorem interests_accounted_four :
    let start := World.ofConfig { mode := .persistent } Segmenter.exampleKey
    let taken := start.records [] fourInterests
    taken.length = 4 ∧ ∃ s, (start.course fourInterests).server = some s ∧
      s.stats = ⟨1, 1, 1⟩ ∧ s.inFlight.length = 1 ∧
      ∃ r ∈ taken, r.ends = [.served] ∧ r.queued.length = 1 := by
  intro start taken
  obtain ⟨running, fair⟩ :=
    interests_accounted { mode := .persistent } Segmenter.exampleKey fourInterests
  have run : ((start.course fourInterests).server.map fun s => (s.stats, s.inFlight.length)) =
        some (⟨1, 1, 1⟩, 1) := by
    decide +kernel
  obtain ⟨s, found, same⟩ := Option.map_eq_some_iff.mp run
  obtain ⟨stats, flying⟩ := Prod.mk.inj same
  obtain ⟨total, counted, -⟩ := running s found
  rw [stats, flying] at total
  rw [stats] at counted
  have one : 0 < taken.countP fun r => r.ends = [.served] := by
    rw [← counted .served]
    decide
  obtain ⟨r, mem, ends⟩ := List.countP_pos_iff.mp one
  have served : r.ends = [.served] := of_decide_eq_true ends
  refine ⟨total, s, found, stats, flying, r, mem, served, ?_⟩
  obtain ⟨unended, -⟩ | ⟨other, -⟩ | ⟨_, _, -, -, queued, -⟩ := fair r mem
  · rw [served] at unended
    cases unended
  · rw [served] at other
    obtain other | other := other
    · cases other
    · cases other
  · rw [queued]
    rfl

end World

end NamedContent
