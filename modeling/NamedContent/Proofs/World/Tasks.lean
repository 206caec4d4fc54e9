import Mathlib
import NamedContent.Proofs.Segmenter.Planning
import NamedContent.Proofs.World.Events

/-!
# Tasks and their calls

Every task has a number of its own, and so has every call that it makes. A
segmenter at work has one block in a call on the buffer, and this block and
those to come are segments of the stream whose namespace it holds.
-/

set_option autoImplicit false

namespace NamedContent

/-- The blocks belong to the stream whose namespace the segmenter holds. -/
def Segmenter.Aims (s : Segmenter) (blocks : List Block) : Prop :=
  ∃ root, s.held = some root ∧ ∀ b ∈ blocks, b.name = root.segmentName b.sequence

theorem Segmenter.Aims.rest {s : Segmenter} {block : Block} {rest : List Block}
    (aims : s.Aims (block :: rest)) : s.Aims rest := by
  obtain ⟨root, held, names⟩ := aims
  exact ⟨root, held, fun b mem => names b (List.mem_cons_of_mem _ mem)⟩

def Task.OnBuffer : Task → Prop
  | .calling | .writing _ _ _ _ | .closing _ _ => True
  | .expressing _ _ _ _ | .fetching _ _ _ | .sending _ _ => False

/-- What holds between the traffic and the tasks, all numbered below the limit. -/
structure Orderly (t : Traffic Caller) (tasks : List (Nat × Task)) (limit : Nat) : Prop where
  sound : t.Sound
  distinct : (tasks.map Prod.fst).Nodup
  begun : ∀ x ∈ tasks, x.1 < limit
  called : ∀ k, Caller.task k ∈ t.calls.map Prod.fst → k < limit
  onBuffer : ∀ x ∈ tasks, x.2.OnBuffer
  writing : ∀ n id s block rest, (n, .writing id s block rest) ∈ tasks →
    (∃ deadline woken, (.task n, .put block deadline woken) ∈ t.calls) ∧
      s.Aims (block :: rest.blocks)

namespace Orderly

variable {t : Traffic Caller} {tasks : List (Nat × Task)} {limit : Nat}

theorem ofConfig (config : Buffer.Config) : Orderly (.ofConfig config) [] 0 where
  sound := Traffic.ofConfig_sound config
  distinct := List.nodup_nil
  begun := fun _ mem => absurd mem List.not_mem_nil
  called := fun _ mem => absurd mem List.not_mem_nil
  onBuffer := fun _ mem => absurd mem List.not_mem_nil
  writing := fun _ _ _ _ _ mem => absurd mem List.not_mem_nil

theorem mono (h : Orderly t tasks limit) {limit' : Nat} (le : limit ≤ limit') :
    Orderly t tasks limit' where
  sound := h.sound
  distinct := h.distinct
  begun := fun x mem => (h.begun x mem).trans_le le
  called := fun k mem => (h.called k mem).trans_le le
  onBuffer := h.onBuffer
  writing := h.writing

theorem free (h : Orderly t tasks limit) : t.call? (.task limit) = none :=
  Traffic.call?_eq_none.mpr fun mem => Nat.lt_irrefl _ (h.called _ mem)

theorem absent (h : Orderly t tasks limit) (task : Task) : (limit, task) ∉ tasks :=
  fun mem => Nat.lt_irrefl _ (h.begun _ mem)

theorem unique (h : Orderly t tasks limit) {n : Nat} {task task' : Task} (mem : (n, task) ∈ tasks)
    (mem' : (n, task') ∈ tasks) : task = task' :=
  (Prod.mk.inj (List.inj_on_of_nodup_map h.distinct mem mem' rfl)).2

theorem of_sublist (h : Orderly t tasks limit) {tasks' : List (Nat × Task)}
    (fewer : tasks'.Sublist tasks) : Orderly t tasks' limit where
  sound := h.sound
  distinct := h.distinct.sublist (fewer.map _)
  begun := fun x mem => h.begun x (fewer.subset mem)
  called := h.called
  onBuffer := fun x mem => h.onBuffer x (fewer.subset mem)
  writing := fun n id s block rest mem => h.writing n id s block rest (fewer.subset mem)

theorem set {n : Nat} (h : Orderly t (tasks.filter fun x => x.1 ≠ n) limit) (below : n < limit)
    {task : Task} (onBuffer : task.OnBuffer)
    (writing : ∀ id s block rest, task = .writing id s block rest →
      (∃ deadline woken, (.task n, .put block deadline woken) ∈ t.calls) ∧
        s.Aims (block :: rest.blocks)) :
    Orderly t ((tasks.filter fun x => x.1 ≠ n) ++ [(n, task)]) limit where
  sound := h.sound
  distinct := by
    rw [List.map_append]
    apply h.distinct.append (List.nodup_singleton _)
    simp
  begun := by
    intro x mem
    rcases List.mem_append.mp mem with old | new
    · exact h.begun x old
    · rw [List.mem_singleton.mp new]
      exact below
  called := h.called
  onBuffer := by
    intro x mem
    rcases List.mem_append.mp mem with old | new
    · exact h.onBuffer x old
    · rw [List.mem_singleton.mp new]
      exact onBuffer
  writing := by
    intro n' id s block rest mem
    rcases List.mem_append.mp mem with old | new
    · exact h.writing n' id s block rest old
    · obtain ⟨rfl, same⟩ := Prod.mk.inj (List.mem_singleton.mp new)
      exact writing id s block rest same.symm

theorem step (h : Orderly t tasks limit) {m : Traffic.Move Caller}
    (own : ∀ n, m.caller? = some (.task n) →
      n < limit ∧ ∀ id s block rest, (n, .writing id s block rest) ∉ tasks) :
    Orderly (t.step m).traffic tasks limit := by
  obtain ⟨f, outcome, shows⟩ := t.step_explained m
  rw [shows.traffic]
  refine ⟨outcome.sound h.sound _, h.distinct, h.begun, ?_, h.onBuffer, ?_⟩
  · intro k mem
    obtain ⟨⟨_, call⟩, found, rfl⟩ := List.mem_map.mp mem
    obtain same | before := outcome.caller_cases found
    · exact (own k same).1
    · exact h.called k before
  · intro n id s block rest mem
    obtain ⟨⟨deadline, woken, listed⟩, aims⟩ := h.writing n id s block rest mem
    have other : m.caller? ≠ some (.task n) := fun same => (own n same).2 id s block rest mem
    obtain ⟨woken', after⟩ := outcome.put_goes_on listed other
    exact ⟨⟨deadline, woken', after⟩, aims⟩

theorem run (h : Orderly t tasks limit) {ms : List (Traffic.Move Caller)}
    (nobody : ∀ m ∈ ms, m.caller? = none) : Orderly (t.run ms) tasks limit := by
  induction ms generalizing t with
  | nil => exact h
  | cons m rest ih =>
    refine ih (h.step ?_) fun m' mem => nobody m' (List.mem_cons_of_mem _ mem)
    intro n own
    rw [nobody m List.mem_cons_self] at own
    contradiction

end Orderly

theorem free_of_holdings {t : Traffic Caller} {who : Caller} (free : t.call? who = none)
    (holdings : List Segmenter.Holding) :
    (t.run (holdings.map Segmenter.Holding.move)).call? who = none := by
  refine Traffic.run_free free fun m mem own => ?_
  obtain ⟨holding, -, rfl⟩ := List.mem_map.mp mem
  rw [holding.caller?] at own
  contradiction

namespace World

def Ordered (w : World) (limit : Nat) : Prop := Orderly w.traffic w.tasks limit

variable {w : World} {n limit : Nat}

theorem Ordered.holdings (h : w.Ordered limit) (holdings : List Segmenter.Holding) :
    (w.applyHoldings holdings).Ordered limit := by
  rw [Ordered, applyHoldings_traffic, applyHoldings_tasks]
  apply Orderly.run h
  intro m mem
  obtain ⟨holding, -, rfl⟩ := List.mem_map.mp mem
  exact holding.caller?

theorem Ordered.dropTask (h : w.Ordered limit) (n : Nat) : (w.dropTask n).Ordered limit :=
  Orderly.of_sublist h List.filter_sublist

theorem not_mem_dropTask (w : World) (n : Nat) (task : Task) : (n, task) ∉ (w.dropTask n).tasks := by
  simp [World.dropTask]

theorem eq_of_mem_setTask {task task' : Task} (mem : (n, task') ∈ (w.setTask n task).tasks) :
    task' = task := by
  rcases List.mem_append.mp mem with old | new
  · exact absurd old (not_mem_dropTask w n task')
  · exact (Prod.mk.inj (List.mem_singleton.mp new)).2

theorem mem_ended_finishWith {loan : Loan} {time : Nat} {outcome outcome' : Outcome}
    (mem : (n, time, outcome') ∈ (w.finishWith n loan outcome).ended) :
    (n, time, outcome') ∈ w.ended ∨ outcome' = outcome := by
  rcases List.mem_append.mp mem with old | new
  · exact .inl old
  · exact .inr (Prod.mk.inj (Prod.mk.inj (List.mem_singleton.mp new)).2).2

theorem Ordered.moved (h : w.Ordered limit) (below : n < limit)
    (idle : ∀ id s block rest, (n, .writing id s block rest) ∉ w.tasks) {m : Traffic.Move Caller}
    (own : m.caller? = some (.task n)) : (w.moved m).Ordered limit := by
  rw [Ordered, moved_traffic, moved_tasks]
  apply Orderly.step h
  intro n' same
  obtain rfl := Caller.task.inj (Option.some.inj (own.symm.trans same))
  exact ⟨below, idle⟩

theorem Ordered.setTask (h : (w.dropTask n).Ordered limit) (below : n < limit) {task : Task}
    (onBuffer : task.OnBuffer) (writing : ∀ id s block rest, task = .writing id s block rest →
      (∃ deadline woken, (.task n, .put block deadline woken) ∈ w.traffic.calls) ∧
        s.Aims (block :: rest.blocks)) : (w.setTask n task).Ordered limit :=
  Orderly.set h below onBuffer writing

section Apart

def OrderedBut (w : World) (n limit : Nat) : Prop := (w.dropTask n).Ordered limit ∧ n < limit

theorem Ordered.but (h : w.Ordered limit) (below : n < limit) : w.OrderedBut n limit :=
  ⟨h.dropTask n, below⟩

theorem Ordered.begins (h : w.Ordered n) : w.OrderedBut n (n + 1) :=
  Ordered.but (Orderly.mono h n.le_succ) n.lt_succ_self

theorem OrderedBut.moved (h : w.OrderedBut n limit) {m : Traffic.Move Caller}
    (own : m.caller? = some (.task n)) : (w.moved m).OrderedBut n limit := by
  refine ⟨?_, h.2⟩
  have moved := h.1.moved h.2 (fun _ _ _ _ => not_mem_dropTask w n _) own
  rw [Ordered, moved_traffic, moved_tasks] at moved
  rw [Ordered, show ((w.moved m).dropTask n).tasks = (w.dropTask n).tasks by
    rw [World.dropTask, World.dropTask, moved_tasks]]
  show Orderly (w.moved m).traffic _ _
  rw [moved_traffic]
  exact moved

theorem OrderedBut.holdings (h : w.OrderedBut n limit) (holdings : List Segmenter.Holding) :
    (w.applyHoldings holdings).OrderedBut n limit := by
  refine ⟨?_, h.2⟩
  have held := h.1.holdings holdings
  rw [Ordered, applyHoldings_traffic, applyHoldings_tasks] at held
  rw [Ordered, show ((w.applyHoldings holdings).dropTask n).tasks = (w.dropTask n).tasks by
    rw [World.dropTask, World.dropTask, applyHoldings_tasks]]
  show Orderly (w.applyHoldings holdings).traffic _ _
  rw [applyHoldings_traffic]
  exact held

theorem OrderedBut.finish (h : w.OrderedBut n limit) (outcome : Outcome) :
    (w.finish n outcome).Ordered limit := h.1

theorem OrderedBut.finishWith (h : w.OrderedBut n limit) (loan : Loan) (outcome : Outcome) :
    (w.finishWith n loan outcome).Ordered limit := h.1

end Apart

theorem OrderedBut.endWriting (h : w.OrderedBut n limit) (id : String) (s : Segmenter)
    (writing : Segmenter.Writing) : (w.endWriting n id s writing).Ordered limit := by
  rw [World.endWriting]
  exact (h.holdings _).finishWith _ _

theorem OrderedBut.putBlocks (h : w.OrderedBut n limit) (id : String) {s : Segmenter}
    {blocks : List Block} (aims : s.Aims blocks) (free : w.traffic.call? (.task n) = none)
    (writing : Segmenter.Writing) : (World.putBlocks n id s blocks w writing).Ordered limit := by
  induction blocks generalizing w writing with
  | nil => exact h.endWriting id s writing
  | cons block rest ih =>
    have next : (w.moved (.put (.task n) block)).OrderedBut n limit := h.moved rfl
    have settles := Traffic.step_settles (.inl ⟨rfl, free⟩ : w.traffic.PutsOn _ (.task n) block)
    rw [World.putBlocks, move_eq]
    cases answer : (w.traffic.step (.put (.task n) block)).answer with
    | none =>
      refine next.1.setTask next.2 trivial ?_
      intro _ _ _ _ same
      obtain ⟨-, rfl, rfl, rfl⟩ := Task.writing.inj same
      obtain ⟨-, waits⟩ | ⟨ended, -⟩ := settles
      · exact ⟨by rwa [moved_traffic], aims⟩
      · rw [answer] at ended
        contradiction
    | some result =>
      cases result with
      | error e => exact next.finishWith _ _
      | ok _ =>
        refine ih next aims.rest ?_ _
        obtain ⟨waits, -⟩ | ⟨-, free⟩ := settles
        · rw [answer] at waits
          contradiction
        · rwa [moved_traffic]

theorem Ordered.beginWriting (h : w.Ordered n) (id : String) (s : Segmenter) (name : Name)
    (content : Bytes) (options : Segmenter.Options) :
    (w.beginWriting n id s name content options).Ordered (n + 1) := by
  have apart := h.begins
  rw [World.beginWriting]
  split
  · exact apart.finishWith _ _
  · rename_i plan planned
    obtain ⟨data, key, -, -, entered, -, writing⟩ := Segmenter.plan_eq_ok planned
    dsimp only
    split
    · exact (apart.holdings _).finishWith _ _
    · rename_i writing' written
      apply (apart.holdings _).putBlocks
      · refine ⟨name.segmentRoot, by rw [entered]; rfl, fun b mem => ?_⟩
        exact (Segmenter.prepare_eq_ok (writing ▸ written)).name mem
      · rw [applyHoldings_traffic]
        exact free_of_holdings h.free plan.holdings

theorem mem_of_task? {task : Task} (found : w.task? n = some task) : (n, task) ∈ w.tasks := by
  obtain ⟨⟨n', task'⟩, listed, rfl⟩ := Option.map_eq_some_iff.mp found
  obtain rfl : n' = n := by simpa using List.find?_some listed
  exact List.mem_of_find?_eq_some listed

theorem Ordered.putsOn (h : w.Ordered limit) {id : String} {s : Segmenter} {block : Block}
    {rest : Segmenter.Writing} (here : (n, .writing id s block rest) ∈ w.tasks) :
    w.traffic.PutsOn (.resume (.task n)) (.task n) block ∧ s.Aims (block :: rest.blocks) := by
  obtain ⟨⟨deadline, woken, listed⟩, aims⟩ := h.writing n id s block rest here
  exact ⟨.inr ⟨rfl, deadline, woken, h.sound.call?_eq_some.mpr listed⟩, aims⟩

theorem Ordered.resumeWriting (h : w.Ordered limit) {id : String} {s : Segmenter} {block : Block}
    {rest : Segmenter.Writing} (here : (n, .writing id s block rest) ∈ w.tasks) :
    (w.resumeWriting n id s block rest).Ordered limit := by
  have below := h.begun _ here
  obtain ⟨puts, aims⟩ := h.putsOn here
  have next : (w.moved (.resume (.task n))).OrderedBut n limit := (h.but below).moved rfl
  have settles := Traffic.step_settles puts
  rw [World.resumeWriting, move_eq]
  cases answer : (w.traffic.step (.resume (.task n))).answer with
  | none =>
    have waits : ∃ deadline woken,
        (.task n, .put block deadline woken) ∈ (w.moved (.resume (.task n))).traffic.calls := by
      obtain ⟨-, waits⟩ | ⟨ended, -⟩ := settles
      · rwa [moved_traffic]
      · rw [answer] at ended
        contradiction
    -- the tasks are the same as before, and the call of this one has been kept
    refine ⟨next.1.sound, ?_, ?_, next.1.called, ?_, ?_⟩
    · rw [moved_tasks]
      exact h.distinct
    · rw [moved_tasks]
      exact h.begun
    · rw [moved_tasks]
      exact h.onBuffer
    · rw [moved_tasks]
      intro n' id' s' block' rest' mem
      by_cases same : n' = n
      · subst same
        obtain ⟨rfl, rfl, rfl, rfl⟩ := Task.writing.inj (Orderly.unique h here mem)
        exact ⟨waits, aims⟩
      · apply next.1.writing n' id' s' block' rest'
        rw [World.dropTask, moved_tasks]
        exact List.mem_filter.mpr ⟨mem, by simpa using same⟩
  | some result =>
    cases result with
    | error e => exact next.finishWith _ _
    | ok _ =>
      refine next.putBlocks id aims.rest ?_ _
      obtain ⟨waits, -⟩ | ⟨-, free⟩ := settles
      · rw [answer] at waits
        contradiction
      · rwa [moved_traffic]

inductive Resumed (w : World) (n : Nat) : World → Prop where
  | absent : Resumed w n w
  | calling (here : (n, .calling) ∈ w.tasks) : Resumed w n (w.resumeCall n)
  | writing {id : String} {s : Segmenter} {block : Block} {rest : Segmenter.Writing}
      (here : (n, .writing id s block rest) ∈ w.tasks) :
      Resumed w n (w.resumeWriting n id s block rest)
  | closing {id : String} {s : Segmenter} (here : (n, .closing id s) ∈ w.tasks) :
      Resumed w n (w.resumeClosing n id s)

inductive Cancelled (w : World) (n : Nat) : World → Prop where
  | absent : Cancelled w n w
  | calling (here : (n, .calling) ∈ w.tasks) :
      Cancelled w n ((w.dropTask n).moved (.cancel (.task n)))
  | writing {id : String} {s : Segmenter} {block : Block} {rest : Segmenter.Writing}
      (here : (n, .writing id s block rest) ∈ w.tasks) :
      Cancelled w n (((w.dropTask n).moved (.cancel (.task n))).dropSegmenter s)
  | closing {id : String} {s : Segmenter} (here : (n, .closing id s) ∈ w.tasks) :
      Cancelled w n (((w.dropTask n).moved (.cancel (.task n))).dropSegmenter s)

section OnBuffer

variable (onBuffer : ∀ x ∈ w.tasks, x.2.OnBuffer) (n : Nat)
include onBuffer

theorem resumed_resumeTask : Resumed w n (w.resumeTask n) := by
  rw [World.resumeTask]
  cases found : w.task? n with
  | none => exact .absent
  | some task =>
    have here := mem_of_task? found
    cases task with
    | calling => exact .calling here
    | writing id s block rest => exact .writing here
    | closing id s => exact .closing here
    | expressing | fetching | sending => exact (onBuffer _ here).elim

theorem cancelled_cancelTask : Cancelled w n (w.cancelTask n) := by
  rw [World.cancelTask]
  cases found : w.task? n with
  | none => exact .absent
  | some task =>
    have here := mem_of_task? found
    cases task with
    | calling => exact .calling here
    | writing id s block rest => exact .writing here
    | closing id s => exact .closing here
    | expressing | fetching | sending => exact (onBuffer _ here).elim

end OnBuffer

theorem Ordered.beginCall (h : w.Ordered n) {m : Traffic.Move Caller}
    (own : m.caller? = some (.task n)) : (w.beginCall n m).Ordered (n + 1) := by
  have apart := h.begins
  have next := apart.moved own
  rw [World.beginCall, move_eq]
  cases (w.traffic.step m).answer with
  | none => exact next.1.setTask next.2 trivial (by intro _ _ _ _ same; contradiction)
  | some answer => exact next.finish _

theorem Ordered.beginClosing (h : w.Ordered n) (id : String) (s : Segmenter) :
    (w.beginClosing n id s).Ordered (n + 1) := by
  have apart := h.begins
  have next : (w.moved (.close (.task n))).OrderedBut n (n + 1) := apart.moved rfl
  rw [World.beginClosing, move_eq]
  cases (w.traffic.step (.close (.task n))).answer with
  | none => exact next.1.setTask next.2 trivial (by intro _ _ _ _ same; contradiction)
  | some answer => exact next.finishWith _ _

theorem Ordered.resumed (h : w.Ordered limit) {task : Task} (here : (n, task) ∈ w.tasks)
    (idle : ∀ id s block rest, task ≠ .writing id s block rest) :
    (w.moved (.resume (.task n))).Ordered limit ∧ (w.moved (.resume (.task n))).OrderedBut n limit :=
  ⟨h.moved (h.begun _ here)
      (fun id s block rest mem => idle id s block rest (Orderly.unique h here mem)) rfl,
    (h.but (h.begun _ here)).moved rfl⟩

theorem Ordered.resumeCall (h : w.Ordered limit) (here : (n, .calling) ∈ w.tasks) :
    (w.resumeCall n).Ordered limit := by
  obtain ⟨stays, next⟩ := h.resumed here (by intro _ _ _ _ same; contradiction)
  rw [World.resumeCall, move_eq]
  cases (w.traffic.step (.resume (.task n))).answer with
  | none => exact stays
  | some answer => exact next.finish _

theorem Ordered.resumeClosing (h : w.Ordered limit) {id : String} {s : Segmenter}
    (here : (n, .closing id s) ∈ w.tasks) : (w.resumeClosing n id s).Ordered limit := by
  obtain ⟨stays, next⟩ := h.resumed here (by intro _ _ _ _ same; contradiction)
  rw [World.resumeClosing, move_eq]
  cases (w.traffic.step (.resume (.task n))).answer with
  | none => exact stays
  | some answer => exact next.finishWith _ _

theorem Ordered.dropSegmenter (h : w.Ordered limit) (s : Segmenter) :
    (w.dropSegmenter s).Ordered limit := h.holdings _

theorem Ordered.cancelTask (h : w.Ordered limit) (n : Nat) : (w.cancelTask n).Ordered limit := by
  have dropped {task : Task} (here : (n, task) ∈ w.tasks) :
      ((w.dropTask n).moved (.cancel (.task n))).Ordered limit :=
    (h.dropTask n).moved (h.begun _ here) (fun _ _ _ _ => not_mem_dropTask w n _) rfl
  have cancelled := cancelled_cancelTask h.onBuffer n
  generalize w.cancelTask n = w' at cancelled
  cases cancelled with
  | absent => exact h
  | calling here => exact dropped here
  | writing here => exact (dropped here).dropSegmenter _
  | closing here => exact (dropped here).dropSegmenter _

theorem Ordered.resumeTask (h : w.Ordered limit) (n : Nat) : (w.resumeTask n).Ordered limit := by
  have resumed := resumed_resumeTask h.onBuffer n
  generalize w.resumeTask n = w' at resumed
  cases resumed with
  | absent => exact h
  | calling here => exact h.resumeCall here
  | writing here => exact h.resumeWriting here
  | closing here => exact h.resumeClosing here

theorem Ordered.fileSegmenter (h : w.Ordered limit) (id : String) (s : Segmenter) :
    (w.fileSegmenter id s).Ordered limit := by
  have filed : ({ w with segmenters := w.segmenters.insert id s } : World).Ordered limit := h
  rw [World.fileSegmenter]
  split
  · exact filed.dropSegmenter _
  · exact filed

theorem Ordered.file (h : w.Ordered limit) (loan : Loan) : (w.file loan).Ordered limit := by
  cases loan with
  | segmenter id s => exact h.fileSegmenter id s
  | face id channel =>
    obtain ⟨_, _, _, _, eq⟩ := w.fileFace_eq id channel
    rw [World.file, eq]
    exact h

theorem Ordered.fileReturned (h : w.Ordered limit) : w.fileReturned.Ordered limit := by
  rw [World.fileReturned]
  generalize w.returned.mergeSort (fun a b => decide (a.1 ≤ b.1)) = loans
  have start : ({ w with returned := [] } : World).Ordered limit := h
  generalize ({ w with returned := [] } : World) = w' at start
  induction loans generalizing w' with
  | nil => exact start
  | cons loan rest ih => exact ih _ (start.file loan.2)

theorem Ordered.withArgument (h : w.Ordered limit) {α : Type} (argument : Except PublishError α)
    {f : α → Session.Performed} (ends : ∀ a, argument = .ok a → (f a).1.Ordered limit) :
    (Session.withArgument w argument f).1.Ordered limit := by
  cases argument with
  | ok a => exact ends a rfl
  | error error => exact h

theorem Ordered.withSegmenter (h : w.Ordered limit) (id : String)
    {f : Segmenter → Session.Performed}
    (ends : ∀ s, w.segmenters.find? id = some s → (f s).1.Ordered limit) :
    (Session.withSegmenter w id f).1.Ordered limit := by
  rw [Session.withSegmenter]
  split
  · rename_i s found
    exact ends s found
  · exact h

theorem Ordered.step (h : w.Ordered n) (e : Event) : (w.step n e).Ordered (n + 1) := by
  have later : w.Ordered (n + 1) := Orderly.mono h n.le_succ
  cases e with
  | move m =>
    rw [World.step, Ordered, moved_traffic, moved_tasks]
    apply Orderly.step later
    intro k own
    rw [Traffic.Move.caller?_map] at own
    cases caller : m.caller? with
    | none => simp [caller] at own
    | some _ => simp [caller] at own
  | put block => exact h.beginCall rfl
  | request interest timeout => exact h.beginCall rfl
  | drain timeout => exact h.beginCall rfl
  | close => exact h.beginCall rfl
  | insertKey key => exact later
  | setDefaultKey publisher => exact later.withArgument _ fun _ _ => later
  | removeKey publisher => exact later
  | newSegmenter id config => exact later.withArgument _ fun s _ => later.fileSegmenter id s
  | setNumbering id numbering =>
    exact later.withSegmenter id fun _ _ => later.withArgument _ fun _ _ => later
  | setBlockSize id size =>
    exact later.withSegmenter id fun _ _ => later.withArgument _ fun _ _ => later
  | setNext id number => exact later.withSegmenter id fun _ _ => later.withArgument _ fun _ _ => later
  | dropSegmenter id =>
    rw [World.step, Session.perform]
    split
    · exact Ordered.dropSegmenter (w := Session.takeSegmenter w id) later _
    · exact later
  | write id name content options =>
    exact later.withSegmenter id fun s _ =>
      Ordered.beginWriting (w := Session.takeSegmenter w id) h id s name content options
  | closeSegmenter id =>
    exact later.withSegmenter id fun s _ =>
      Ordered.beginClosing (w := Session.takeSegmenter w id) h id s
  | resume task => exact later.resumeTask task
  | cancel task => exact later.cancelTask task
  | putBack => exact later.fileReturned

theorem ofConfig_ordered (config : Buffer.Config) (key : Ed25519.SigningKey) :
    (World.ofConfig config key).Ordered 0 := Orderly.ofConfig config

end World

end NamedContent
