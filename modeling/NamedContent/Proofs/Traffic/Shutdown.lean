import Mathlib
import NamedContent.Proofs.Traffic.Lasting
import NamedContent.Proofs.Traffic.Losses
import NamedContent.Proofs.Traffic.Undelivered
import NamedContent.Proofs.Traffic.Waiting

/-!
# The order of a shutdown

A buffer takes puts until a close begins, serves what it has until a close ends, and
is empty from then on. Closes may overlap and may be given up on the way: the phase
never goes back. All puts are refused as soon as the first close begins, those that
wait for room are woken to learn it, and the requests that are still parked at the
end are let go.
-/

set_option autoImplicit false

namespace NamedContent

inductive Phase.Next : Phase → Phase → Prop where
  | drain : Next .accepting .draining
  | close : Next .draining .closed

theorem Phase.next_of {p q : Phase} (ahead : q = p ∨ q ≠ .accepting)
    (stays : p = .closed → q = .closed) : Relation.ReflTransGen Phase.Next p q := by
  have drains := Relation.ReflTransGen.single Phase.Next.drain
  have closes := Relation.ReflTransGen.single Phase.Next.close
  cases p with
  | accepting =>
    cases q with
    | accepting => exact .refl
    | draining => exact drains
    | closed => exact drains.trans closes
  | draining =>
    cases q with
    | accepting => simp at ahead
    | draining => exact .refl
    | closed => exact closes
  | closed => rw [stays rfl]

namespace Buffer

variable {b b' : Buffer} {ns : List Notice}

theorem Change.phase_cases (change : b.Change b' ns) (h : b.Consistent) :
    b'.phase = b.phase ∨ .space ∈ ns ∧ (b'.phase = .draining ∨ b'.entries = .empty) := by
  cases change with
  | @file block _ _ _ _ _ filed =>
    obtain ⟨entries, room⟩ := b.makeRoom_eq block.name
    exact .inl (by rw [(file_filed (makeRoom_consistent h _) filed).phase, room])
  | miss => exact .inl (forget_sameStore _ _).phase
  | forget id => exact .inl (forget_sameStore b id).phase
  | dropFeed id => exact .inl (forget_sameStore b id).phase
  | drain => exact .inr ⟨List.mem_singleton.mpr rfl, .inl rfl⟩
  | shut => exact .inr ⟨b.shutNotices_space, .inr rfl⟩
  | close => exact .inr ⟨List.mem_cons_self, .inr rfl⟩
  | subscribe opened =>
    obtain ⟨-, rfl⟩ := subscribe?_eq_some opened
    exact .inl rfl
  | _ => exact .inl rfl

theorem Change.stays_empty (change : b.Change b' ns) (closed : b.phase = .closed)
    (empty : b.entries = .empty) : b'.entries = .empty := by
  cases change with
  | file phase =>
    rw [closed] at phase
    contradiction
  | serve phase => exact absurd closed phase
  | sweep =>
    rw [Buffer.sweep, empty]
    rfl
  | remove =>
    rw [empty]
    rfl
  | miss => exact (forget_sameStore _ _).entries.trans empty
  | forget id => exact (forget_sameStore b id).entries.trans empty
  | dropFeed id => exact (forget_sameStore b id).entries.trans empty
  | subscribe opened => exact absurd closed (subscribe?_eq_some opened).1
  | shut | close | clear => rfl
  | stay | park | drain | resize | scope | read => exact empty

theorem accepting_of_full {block : Block} (tried : b.tryInsert block = .full b') :
    b'.phase = .accepting := by
  obtain ⟨rfl, -⟩ := tryInsert_full tried
  obtain ⟨entries, room⟩ := b.makeRoom_eq block.name
  rw [room]
  by_contra phase
  rw [tryInsert, if_pos phase] at tried
  contradiction

end Buffer

namespace Traffic

variable {κ : Type} [DecidableEq κ] {t start : Traffic κ} {m : Move κ} {f : Effect κ}
  {ms : List (Move κ)} {who : κ} {id deadline now : Nat} {block : Block} {config : Buffer.Config}

theorem Outcome.phase_next (outcome : t.Outcome m f) (sound : t.Sound)
    (nobody : t.buffer.phase = .closed → t.buffer.pending = []) :
    Relation.ReflTransGen Phase.Next t.buffer.phase f.buffer.phase :=
  Phase.next_of ((outcome.phase sound).imp_right And.left) fun closed =>
    ((outcome.change sound.buffer).closed closed (nobody closed)).1

theorem run_phase_next (config : Buffer.Config) (ms rest : List (Move κ)) :
    Relation.ReflTransGen Phase.Next ((ofConfig config).run ms).buffer.phase
      ((ofConfig config).run (ms ++ rest)).buffer.phase := by
  induction rest using List.reverseRecOn with
  | nil =>
    rw [List.append_nil]
  | append_singleton rest m ih =>
    obtain ⟨f, outcome, shows⟩ := ((ofConfig config).run (ms ++ rest)).step_explained m
    rw [← List.append_assoc, run_snoc, shows.traffic]
    exact ih.trans (outcome.phase_next (run_sound config _) (run_nobody config _))

def BeginsClose (t : Traffic κ) (m : Move κ) : Prop := ∃ who, m = .close who ∧ t.call? who = none

def CloseBegun (t : Traffic κ) (ms : List (Move κ)) : Prop :=
  ∃ before m after, ms = before ++ m :: after ∧ (t.run before).BeginsClose m

theorem closeBegun_snoc :
    t.CloseBegun (ms ++ [m]) ↔ t.CloseBegun ms ∨ (t.run ms).BeginsClose m :=
  exists_split_snoc

omit [DecidableEq κ] in
theorem attemptDrain_phase (phase : t.buffer.phase ≠ .accepting) (closing : Bool)
    (started deadline : Nat) :
    (t.attemptDrain who closing started deadline).traffic.buffer.phase ≠ .accepting := by
  rw [attemptDrain]
  split
  · cases closing with
    | false =>
      rw [endDrain, if_neg Bool.false_ne_true, finish_buffer]
      exact phase
    | true =>
      rw [endDrain, if_pos rfl, endClose, finish_buffer]
      show Phase.closed ≠ .accepting
      decide
  · exact phase

theorem BeginsClose.phase (begins : t.BeginsClose m) :
    (t.step m).traffic.buffer.phase ≠ .accepting := by
  obtain ⟨who, rfl, free⟩ := begins
  have begun : t.step (.close who) = t.beginClose who := begin_free free _
  rw [begun, beginClose]
  split
  · rename_i closed
    rw [finish_buffer, closed]
    decide
  · have draining : (({ t with buffer := t.buffer.beginDrain } : Traffic κ).hearAll
        [.space]).1.buffer.phase ≠ .accepting := by
      rw [hearAll_eq]
      show Phase.draining ≠ .accepting
      decide
    dsimp only
    split
    · exact attemptDrain_phase draining _ _ _
    · rw [endClose, finish_buffer]
      show Phase.closed ≠ .accepting
      decide

theorem accepting_iff (config : Buffer.Config) (ms : List (Move κ)) :
    ((ofConfig config).run ms).buffer.phase = .accepting ↔ ¬(ofConfig config).CloseBegun ms := by
  induction ms using List.reverseRecOn with
  | nil =>
    refine iff_of_true rfl ?_
    rintro ⟨before, m, after, split, -⟩
    simp at split
  | append_singleton past m ih =>
    have sound := run_sound config past
    obtain ⟨f, outcome, shows⟩ := ((ofConfig config).run past).step_explained m
    rw [closeBegun_snoc, not_or, ← ih, run_snoc]
    constructor
    · intro after
      refine ⟨?_, fun begins => begins.phase after⟩
      rw [shows.traffic] at after
      obtain same | ⟨ended, -⟩ := outcome.phase sound
      · exact same.symm.trans after
      · exact absurd after ended
    · rintro ⟨accepting, other⟩
      by_cases closing : ((ofConfig config).run past).Closing m
      · obtain ⟨who, rfl | ⟨rfl, started, deadline, woken, waits⟩⟩ := closing
        · -- a caller that is busy closes nothing
          have busy : (((ofConfig config).run past).call? who).isSome = true :=
            Option.isSome_iff_ne_none.mpr fun free => other ⟨who, rfl, free⟩
          rw [step, begin, if_pos busy]
          exact accepting
        · exact absurd (mem_of_call? waits) (run_unclosing config past accepting _ _ _ _)
      · rw [shows.traffic]
        obtain same | ⟨-, closes⟩ := outcome.phase sound
        · exact same.trans accepting
        · exact absurd closes closing

/-- On a buffer that takes no puts, all that wait have been woken. -/
def Roused (t : Traffic κ) : Prop :=
  t.buffer.phase ≠ .accepting →
    ∀ who block deadline woken, (who, .put block deadline woken) ∈ t.calls → woken = true

theorem Outcome.roused (outcome : t.Outcome m f) (sound : t.Sound) (h : t.Roused) :
    (f.traffic now).Roused := by
  intro phase who block deadline woken found
  rcases mem_effect_calls.mp found with kept | new
  · cases woken with
    | true => rfl
    | false =>
      obtain ⟨listed, untold⟩ := waiting_of_heard kept
      obtain same | ⟨told, -⟩ := (outcome.change sound.buffer).phase_cases sound.buffer
      · exact h (same ▸ phase) _ _ _ _ (outcome.call_cases listed)
      · exact absurd told untold
  · obtain none | ⟨_, -, ⟨_, _, eq, -, tried⟩ | ⟨_, _, eq, -⟩ | ⟨_, _, _, eq⟩⟩ :=
      outcome.added_cases
    · rw [none] at new
      contradiction
    · exact absurd (Buffer.accepting_of_full tried) phase
    · rw [eq] at new
      cases List.mem_singleton.mp new
    · rw [eq] at new
      cases List.mem_singleton.mp new

theorem run_roused (config : Buffer.Config) (ms : List (Move κ)) :
    ((ofConfig config).run ms).Roused :=
  (run_preserves (fun _ _ _ sound h outcome => outcome.roused sound h) (ofConfig_sound config)
    (by intro _ _ _ _ _ found; contradiction) ms).2

/-- No put succeeds any more. Each that begins or goes on is refused, and those that
wait can go on at once, and stay until they do or are cancelled. -/
structure RefusesPuts (t : Traffic κ) : Prop where
  refused : ∀ m who block, t.PutsOn m who block →
    (t.step m).answer = some (.error .closedBuffer)
  awake : ∀ who block deadline woken, t.call? who = some (.put block deadline woken) →
    t.resume who ≠ t.idle
  stays : ∀ who block deadline woken, t.call? who = some (.put block deadline woken) →
    ∀ m, m ≠ .resume who → m ≠ .cancel who →
      ∃ woken', (t.step m).traffic.call? who = some (.put block deadline woken')

theorem Roused.refusesPuts (roused : t.Roused) (sound : t.Sound)
    (phase : t.buffer.phase ≠ .accepting) : t.RefusesPuts where
  refused := by
    rintro m who block (⟨rfl, free⟩ | ⟨rfl, deadline, woken, waits⟩)
    · exact put_refused free phase block
    · obtain rfl := roused phase _ _ _ _ (mem_of_call? waits)
      have shut : (t.withoutCall who).buffer.phase ≠ .accepting := phase
      have refused : (t.withoutCall who).buffer.tryInsert block = .refused .closedBuffer := by
        rw [Buffer.tryInsert, if_pos shut]
      show (t.resume who).answer = _
      rw [resume_put waits, if_pos rfl, attemptPut, refused]
      rfl
  awake := by
    intro who block deadline woken waits
    obtain rfl := roused phase _ _ _ _ (mem_of_call? waits)
    exact woken_goes_on sound waits
  stays := by
    intro who block deadline woken waits m resumes cancels
    obtain ⟨f, outcome, shows⟩ := t.step_explained m
    obtain kept | resumed | cancelled := outcome.kept_cases (mem_of_call? waits)
    · refine ⟨woken || decide (.space ∈ f.notices), ?_⟩
      rw [shows.traffic, (outcome.sound sound _).call?_eq_some, ← Call.put_heard]
      exact mem_effect_calls.mpr (.inl (mem_heard.mpr ⟨_, kept, rfl⟩))
    · exact absurd resumed resumes
    · exact absurd cancelled cancels

/-- The request of the caller waits in the table without a block. -/
def Parked (t : Traffic κ) (who : κ) (id deadline : Nat) : Prop :=
  t.call? who = some (.request id deadline .empty) ∧
    ∃ w ∈ t.buffer.pending, w.id = id ∧ w.demand = .once

theorem Outcome.lets_go (outcome : t.Outcome m f) (trade : t.Trade m f) (sound : t.Sound)
    (going : t.buffer.phase ≠ .closed) (closed : f.buffer.phase = .closed)
    (parked : t.Parked who id deadline) :
    (who, .request id deadline .released) ∈ (f.traffic now).calls := by
  obtain ⟨waits, w, hw, rfl, once⟩ := parked
  have closing : t.Closing m := by
    obtain same | ⟨-, closing⟩ := outcome.phase sound
    · exact absurd (same.symm.trans closed) going
    · exact closing
  have kept : (who, .request w.id deadline .empty) ∈ f.kept := by
    obtain kept | rfl | rfl := outcome.kept_cases (mem_of_call? waits)
    · exact kept
    · obtain ⟨_, other | ⟨same, _, _, _, drains⟩⟩ := closing
      · cases other
      · obtain rfl := Move.resume.inj same
        cases waits.symm.trans drains
    · obtain ⟨_, other | ⟨other, -⟩⟩ := closing
      · cases other
      · cases other
  have unhanded (block : Block) : .handed w.id block ∉ f.notices := by
    intro told
    have puts := putBlock?_of_inserts (trade.told sound told).1
    rw [putBlock?_of_closing closing] at puts
    contradiction
  have told : .released w.id ∈ f.notices := by
    have filter : m ≠ .unsubscribe w.id := by
      rintro rfl
      obtain ⟨_, other | ⟨other, -⟩⟩ := closing
      · cases other
      · cases other
    obtain stays | ⟨block, handed⟩ | told | left := outcome.once_stays sound hw once filter
    · rw [(outcome.change sound.buffer).nobody sound.buffer (fun before => absurd before going)
        closed] at stays
      contradiction
    · exact absurd handed (unhanded block)
    · exact told
    · exact absurd kept (left _ _ _)
  refine mem_effect_calls.mpr (.inl (mem_heard.mpr ⟨_, kept, ?_⟩))
  obtain ⟨slot, heard, rfl | ⟨-, ⟨block, rfl, handed⟩ | ⟨rfl, -⟩⟩⟩ :=
    Call.request_heard w.id deadline .empty f.notices
  · exact absurd told (Call.untold heard).2.2
  · exact absurd handed (unhanded block)
  · exact heard.symm

theorem Outcome.released_on (outcome : t.Outcome m f)
    (listed : (who, .request id deadline .released) ∈ t.calls)
    (others : m ≠ .resume who ∧ m ≠ .cancel who) :
    (who, .request id deadline .released) ∈ (f.traffic now).calls := by
  obtain kept | resumed | cancelled := outcome.kept_cases listed
  · have filled : Slot.released ≠ .empty := nofun
    exact mem_effect_calls.mpr (.inl (mem_heard.mpr
      ⟨_, kept, (Call.filled_heard id deadline filled f.notices).symm⟩))
  · exact absurd resumed others.1
  · exact absurd cancelled others.2

theorem run_released (sound : t.Sound) (listed : (who, .request id deadline .released) ∈ t.calls)
    {rest : List (Move κ)} (others : ∀ m ∈ rest, m ≠ .resume who ∧ m ≠ .cancel who) :
    (t.run rest).call? who = some (.request id deadline .released) := by
  induction rest generalizing t with
  | nil => exact sound.call?_eq_some.mpr listed
  | cons m rest ih =>
    obtain ⟨f, outcome, shows⟩ := t.step_explained m
    refine ih (step_sound sound m) ?_ fun m' mem => others m' (List.mem_cons_of_mem _ mem)
    rw [shows.traffic]
    exact outcome.released_on listed (others m List.mem_cons_self)

/-- The request of the caller can go on, and learns that the buffer is closed. -/
def LetGo (t : Traffic κ) (who : κ) : Prop :=
  t.resume who ≠ t.idle ∧ (t.step (.resume who)).answer = some (.error .closedBuffer)

theorem letGo_of_released (waits : t.call? who = some (.request id deadline .released)) :
    t.LetGo who := by
  have answer : (t.step (.resume who)).answer = some (.error .closedBuffer) := by
    show (t.resume who).answer = _
    simp only [resume, waits]
    rfl
  refine ⟨fun same => ?_, answer⟩
  rw [show t.step (.resume who) = t.idle from same] at answer
  contradiction

theorem run_empty (config : Buffer.Config) (ms : List (Move κ)) :
    ((ofConfig config : Traffic κ).run ms).buffer.phase = .closed →
      ((ofConfig config : Traffic κ).run ms).buffer.entries = .empty := by
  refine (run_preserves (P := fun t => t.buffer.phase = .closed → t.buffer.entries = .empty) ?_
    (ofConfig_sound config) (fun _ => rfl) ms).2
  intro t m f sound before outcome closed
  have change := outcome.change sound.buffer
  obtain same | ⟨-, draining | empty⟩ := change.phase_cases sound.buffer
  · have already := same.symm.trans closed
    exact change.stays_empty already (before already)
  · cases draining.symm.trans closed
  · exact empty

/-- The buffer is closed and empty, nobody waits on it, and whatever begins is refused. -/
structure Deserted (t : Traffic κ) : Prop where
  closed : t.buffer.phase = .closed
  entries : t.buffer.entries = .empty
  pending : t.buffer.pending = []
  matcher : t.buffer.matcher = .empty
  put : ∀ who, t.call? who = none → ∀ block,
    (t.step (.put who block)).answer = some (.error .closedBuffer)
  request : ∀ who, t.call? who = none → ∀ interest timeout,
    (t.step (.request who interest timeout)).answer = some (.error .closedBuffer)
  subscribe : ∀ interest limit,
    (t.step (.subscribe interest limit)).answer = some (.error .closedBuffer)

theorem run_deserted (closed : ((ofConfig config : Traffic κ).run ms).buffer.phase = .closed) :
    ((ofConfig config : Traffic κ).run ms).Deserted where
  closed := closed
  entries := run_empty config ms closed
  pending := run_nobody config ms closed
  matcher := Buffer.matcher_eq_empty (run_sound config ms).buffer (run_tidy config ms)
    (run_nobody config ms closed)
  put := fun _ free block => put_refused free (by rw [closed]; nofun) block
  request := by
    intro who free interest timeout
    have refused : ((ofConfig config).run ms).buffer.request interest = .refused := by
      rw [Buffer.request, if_pos closed]
    rw [step, begin_free free, beginRequest, refused]
    rfl
  subscribe := by
    intro interest limit
    have refused : ((ofConfig config).run ms).buffer.subscribe? interest limit = none := by
      rw [Buffer.subscribe?, if_pos closed]
    simp only [step, refused]
    rfl

/-- A buffer takes puts just until the first close begins, and its phase never goes
back. As soon as a close has begun, no put succeeds, also none that waits for room: it
ends with the refusal, and nobody lets it wait. Once the buffer is closed, it is empty
for good and refuses whatever begins. A request in progress without a block is parked,
if filters are dropped by nobody but their holders, and those that are parked when the
buffer is closed can go on from then on and end with the refusal too. -/
theorem shutdown_ordered (config : Buffer.Config) (ms : List (Move κ)) :
    let start : Traffic κ := ofConfig config
    let t := start.run ms
    (t.buffer.phase = .accepting ↔ ¬start.CloseBegun ms) ∧
    (∀ rest, Relation.ReflTransGen Phase.Next t.buffer.phase (t.run rest).buffer.phase) ∧
    (start.CloseBegun ms → t.RefusesPuts) ∧
    (t.buffer.phase = .closed → ∀ rest, (t.run rest).Deserted) ∧
    (start.DropsOpen ms → ∀ who id deadline,
      t.call? who = some (.request id deadline .empty) → t.Parked who id deadline) ∧
    ∀ m, t.buffer.phase ≠ .closed → (t.step m).traffic.buffer.phase = .closed →
      ∀ who id deadline, t.Parked who id deadline →
        ∀ rest, (∀ m' ∈ rest, m' ≠ .resume who ∧ m' ≠ .cancel who) →
          ((t.step m).traffic.run rest).LetGo who := by
  intro start t
  have sound : t.Sound := run_sound config ms
  have onwards (rest : List (Move κ)) : t.run rest = start.run (ms ++ rest) :=
    (run_append start ms rest).symm
  refine ⟨accepting_iff config ms, ?_, ?_, ?_, ?_, ?_⟩
  · intro rest
    rw [onwards]
    exact run_phase_next config ms rest
  · intro begun
    refine (run_roused config ms).refusesPuts sound fun accepting => ?_
    exact (accepting_iff config ms).mp accepting begun
  · intro closed rest
    have still := (run_closed sound closed (run_nobody config ms closed) rest).1
    rw [onwards] at still ⊢
    exact run_deserted still
  · intro own who id deadline waits
    have inStep := run_inStep (ofConfig_sound config) (ofConfig_inStep config) ms own
    exact ⟨waits, inStep.waits who id deadline (mem_of_call? waits)⟩
  · intro m going closed who id deadline parked rest others
    obtain ⟨f, outcome, shows⟩ := t.step_explained m
    have listed : (who, .request id deadline .released) ∈ (t.step m).traffic.calls := by
      rw [shows.traffic] at closed ⊢
      exact outcome.lets_go (outcome.trade shows.answer) sound going closed parked
    exact letGo_of_released (run_released (step_sound sound m) listed others)

/-- One put and one request wait, a close is begun and given up, and the time of a
second one runs out. -/
def closingTwice : List (Move Nat) :=
  [.put 0 (letterBlock 97), .put 1 (letterBlock 98),
    .request 2 (.ofName (letterBlock 99).name) 1000, .close 3, .cancel 3, .close 4, .tick 100]

def halfClosed : Traffic Nat := (ofConfig { capacity := 1, drainTimeout := 100 }).run closingTwice

/-- The put is refused while the second close waits, and the request is let go by its end. -/
theorem shutdown_ordered_twice :
    halfClosed.PutsOn (.resume 1) 1 (letterBlock 98) ∧
      (halfClosed.step (.resume 1)).answer = some (.error .closedBuffer) ∧
      halfClosed.Parked 2 0 1000 ∧
      (halfClosed.step (.resume 4)).traffic.buffer.phase = .closed ∧
      (halfClosed.step (.resume 4)).traffic.LetGo 2 := by
  obtain ⟨-, -, refuses, -, parks, lets_go⟩ :=
    shutdown_ordered { capacity := 1, drainTimeout := 100 } closingTwice
  have begun : (ofConfig { capacity := 1, drainTimeout := 100 }).CloseBegun closingTwice :=
    ⟨closingTwice.take 3, .close 3, closingTwice.drop 4, rfl, 3, rfl, by decide +kernel⟩
  have own : (ofConfig { capacity := 1, drainTimeout := 100 }).DropsOpen closingTwice :=
    ⟨nofun, nofun, nofun, nofun, nofun, nofun, nofun, trivial⟩
  have puts : halfClosed.PutsOn (.resume 1) 1 (letterBlock 98) :=
    .inr ⟨rfl, 10000, true, by decide +kernel⟩
  have parked : halfClosed.Parked 2 0 1000 := parks own 2 0 1000 (by decide +kernel)
  have going : halfClosed.buffer.phase ≠ .closed := by decide +kernel
  have closed : (halfClosed.step (.resume 4)).traffic.buffer.phase = .closed := by decide +kernel
  exact ⟨puts, (refuses begun).refused _ _ _ puts, parked, closed,
    lets_go (.resume 4) going closed 2 0 1000 parked [] nofun⟩

end Traffic

end NamedContent
