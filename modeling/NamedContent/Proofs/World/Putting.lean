import Mathlib
import NamedContent.Proofs.Traffic.Lasting
import NamedContent.Proofs.World.Confined

/-!
# How far a put has come

A segmenter puts its blocks one after the other. On a persistent buffer that
nobody closes and from which nobody takes any of them away, all blocks that have
arrived stay, and when the put ends well all of them have arrived.
-/

set_option autoImplicit false

namespace NamedContent

theorem Traffic.Move.keeps_map {κ κ' : Type} (f : κ → κ') {m : Traffic.Move κ} {blocks : List Block}
    (keeps : m.Keeps blocks) : (m.map f).Keeps blocks := by
  cases m <;> exact keeps

theorem Segmenter.Holding.keeps (h : Segmenter.Holding) (blocks : List Block) :
    h.move.Keeps blocks := by
  cases h <;> trivial

namespace World

def Event.Keeps (blocks : List Block) : Event → Prop
  | .move m => m.Keeps blocks
  | .close | .closeSegmenter _ => False
  | _ => True

theorem Event.Keeps.makes {blocks : List Block} {e : Event} (keeps : e.Keeps blocks) (n : Nat) :
    e.Makes (Traffic.Move.Keeps blocks) n := by
  cases e with
  | move m => exact Traffic.Move.keeps_map _ keeps
  | close => exact keeps.elim
  | closeSegmenter id => exact keeps.elim
  | write => exact fun _ => trivial
  | resume => exact ⟨trivial, fun _ => trivial⟩
  | _ => trivial

/-- Those of its blocks that a task at work has put. -/
def brought (w : World) (n : Nat) (blocks : List Block) : List Block :=
  match w.task? n with
  | some (.writing _ _ _ rest) => blocks.take (blocks.length - (rest.blocks.length + 1))
  | _ => blocks

/-- None of these events, of which the first has number `k`, closes anything or
takes a block away that the task has put. -/
def Undisturbed (w : World) (n : Nat) (blocks : List Block) (k : Nat) : List Event → Prop
  | [] => True
  | e :: rest => e.Keeps (w.brought n blocks) ∧ (w.step k e).Undisturbed n blocks (k + 1) rest

def Unanswered (w : World) (n : Nat) : Prop :=
  ∀ time block, (n, time, .ok (.block block)) ∉ w.ended

structure Underway (w : World) (n : Nat) (done : List Block) : Prop where
  lasting : w.traffic.Lasting
  there : w.traffic.HasAll done
  unanswered : w.Unanswered n

/-- Where the task stands that puts the blocks: at work, after so many of them; at its
good end, with all of them in the buffer; or at another end. -/
inductive Stage (n : Nat) (blocks : List Block) (w : World) : Prop where
  | working (id : String) (s : Segmenter) (done : List Block) (block : Block)
      (rest : Segmenter.Writing)
      (tasks : ∀ task, (n, task) ∈ w.tasks → task = .writing id s block rest)
      (split : blocks = done ++ block :: rest.blocks) (first : rest.first = done.head?)
      (underway : w.Underway n done)
  | arrived (absent : ∀ task, (n, task) ∉ w.tasks)
      (first : ∀ time b, (n, time, .ok (.block b)) ∈ w.ended → blocks.head? = some b)
      (lasting : w.traffic.Lasting) (there : w.traffic.HasAll blocks)
  | failed (absent : ∀ task, (n, task) ∉ w.tasks) (unanswered : w.Unanswered n)

variable {w w' : World} {n limit : Nat} {blocks done : List Block}

theorem Unanswered.of_same (h : w.Unanswered n) (ended : w'.ended = w.ended) : w'.Unanswered n := by
  rw [Unanswered, ended]
  exact h

theorem failed_of_error (unanswered : w.Unanswered n) (loan : Loan) (fault : Fault) :
    Stage n blocks (w.finishWith n loan (.error fault)) := by
  refine .failed (not_mem_dropTask w n) fun time block mem => ?_
  obtain old | same := mem_ended_finishWith mem
  · exact unanswered time block old
  · contradiction

section Underway

variable (h : w.Underway n done)
include h

theorem Underway.moved {m : Traffic.Move Caller} (keeps : m.Keeps done) :
    (w.moved m).Underway n done := by
  refine ⟨?_, ?_, h.unanswered.of_same (moved_ended w m)⟩
  · rw [moved_traffic]
    exact h.lasting.step keeps
  · rw [moved_traffic]
    exact h.lasting.hasAll_step keeps h.there

theorem Underway.holdings (holdings : List Segmenter.Holding) :
    (w.applyHoldings holdings).Underway n done := by
  have keeps : ∀ m ∈ holdings.map Segmenter.Holding.move, m.Keeps done := by
    intro m mem
    obtain ⟨holding, -, rfl⟩ := List.mem_map.mp mem
    exact holding.keeps done
  obtain ⟨lasts, stays⟩ := h.lasting.run keeps h.there
  rw [← applyHoldings_traffic] at lasts stays
  exact ⟨lasts, stays, h.unanswered.of_same (applyHoldings_ended w holdings)⟩

theorem Underway.put {m : Traffic.Move Caller} (keeps : m.Keeps done) {block : Block}
    (puts : w.traffic.PutsOn m (.task n) block) {answer : Answer}
    (ended : (w.traffic.step m).answer = some (.ok answer)) :
    (w.moved m).Underway n (done ++ [block]) ∧ (w.moved m).traffic.call? (.task n) = none := by
  have next := h.moved keeps
  constructor
  · refine ⟨next.lasting, fun b mem => ?_, next.unanswered⟩
    rcases List.mem_append.mp mem with old | new
    · exact next.there b old
    · rw [List.mem_singleton.mp new, moved_traffic]
      exact puts.present h.lasting.sound ended
  · rw [moved_traffic]
    obtain ⟨waits, -⟩ | ⟨-, free⟩ := Traffic.step_settles puts
    · rw [ended] at waits
      contradiction
    · exact free

theorem Underway.endWriting (id : String) (s : Segmenter) {writing : Segmenter.Writing}
    (first : writing.first = done.head?) : Stage n done (w.endWriting n id s writing) := by
  have last := h.holdings (s.complete writing).2
  refine .arrived (not_mem_dropTask _ n) ?_ last.lasting last.there
  intro time b mem
  obtain old | same := mem_ended_finishWith mem
  · exact absurd old (last.unanswered time b)
  · rw [← first]
    cases found : writing.first with
    | none => simp [found] at same
    | some block =>
      have here : b = block := by simpa [found] using same
      rw [here]

end Underway

theorem head?_arrived {writing : Segmenter.Writing} (first : writing.first = done.head?)
    (block : Block) (rest : List Block) :
    (writing.arrived block rest).first = (done ++ [block]).head? := by
  cases done with
  | nil => simp [Segmenter.Writing.arrived, first]
  | cons b _ => simp [Segmenter.Writing.arrived, first]

theorem putBlocks_stage {left : List Block} (split : blocks = done ++ left)
    (h : w.Underway n done) (free : w.traffic.call? (.task n) = none) (id : String) (s : Segmenter)
    {writing : Segmenter.Writing} (first : writing.first = done.head?) :
    Stage n blocks (World.putBlocks n id s left w writing) := by
  -- every block that arrives goes over from those left to those done
  induction left generalizing w done writing with
  | nil =>
    rw [List.append_nil] at split
    subst split
    exact h.endWriting id s first
  | cons block rest ih =>
    have keeps : (Traffic.Move.put (Caller.task n) block).Keeps done := trivial
    have next := h.moved keeps
    rw [World.putBlocks, move_eq]
    cases answer : (w.traffic.step (.put (.task n) block)).answer with
    | none =>
      exact .working id s done block { writing with blocks := rest } (fun _ => eq_of_mem_setTask)
        split first ⟨next.lasting, next.there, next.unanswered⟩
    | some result =>
      cases result with
      | error e => exact failed_of_error next.unanswered _ _
      | ok _ =>
        obtain ⟨more, free⟩ := h.put keeps (.inl ⟨rfl, free⟩) answer
        exact ih (by simpa using split) more free (head?_arrived first block rest)

theorem resumeWriting_stage {id : String} {s : Segmenter} {block : Block}
    {rest : Segmenter.Writing} (ordered : w.Ordered limit)
    (here : (n, .writing id s block rest) ∈ w.tasks)
    (split : blocks = done ++ block :: rest.blocks) (first : rest.first = done.head?)
    (h : w.Underway n done) : Stage n blocks (w.resumeWriting n id s block rest) := by
  have keeps : (Traffic.Move.resume (Caller.task n)).Keeps done := trivial
  have next := h.moved keeps
  rw [World.resumeWriting, move_eq]
  cases answer : (w.traffic.step (.resume (.task n))).answer with
  | none =>
    refine .working id s done block rest (fun task mem => ?_) split first next
    rw [moved_tasks] at mem
    exact Orderly.unique ordered mem here
  | some result =>
    cases result with
    | error e => exact failed_of_error next.unanswered _ _
    | ok _ =>
      obtain ⟨more, free⟩ := h.put keeps (ordered.putsOn here).1 answer
      exact putBlocks_stage (by simpa using split) more free id s
        (head?_arrived first block rest.blocks)

theorem brought_of_working {id : String} {s : Segmenter} {block : Block} {rest : Segmenter.Writing}
    (tasks : ∀ task, (n, task) ∈ w.tasks → task = .writing id s block rest)
    (split : blocks = done ++ block :: rest.blocks) : done ⊆ w.brought n blocks := by
  rw [brought]
  cases found : w.task? n with
  | none =>
    rw [split]
    exact List.subset_append_left _ _
  | some task =>
    obtain rfl := tasks task (mem_of_task? found)
    rw [split]
    simp

theorem brought_of_absent (absent : ∀ task, (n, task) ∉ w.tasks) : w.brought n blocks = blocks := by
  rw [brought, task?_eq_none absent]

theorem Stage.confined (h : Stage n blocks w) {own : Nat} (other : own ≠ n)
    (apart : Confined own (Traffic.Move.Keeps (w.brought n blocks)) w w') : Stage n blocks w' := by
  obtain ⟨ms, keeps, traffic⟩ := apart.moves
  have tasks {task : Task} (mem : (n, task) ∈ w'.tasks) : (n, task) ∈ w.tasks :=
    (apart.tasks _ mem).resolve_right other.symm
  have ended {x : Nat × Outcome} (mem : (n, x) ∈ w'.ended) : (n, x) ∈ w.ended :=
    (apart.ended _ mem).resolve_right other.symm
  cases h with
  | working id s done block rest here split first underway =>
    obtain ⟨lasts, stays⟩ := underway.lasting.run
      (fun m mem => (keeps m mem).of_subset (brought_of_working here split)) underway.there
    rw [← traffic] at lasts stays
    exact .working id s done block rest (fun task mem => here task (tasks mem)) split first
      ⟨lasts, stays, fun time b mem => underway.unanswered time b (ended mem)⟩
  | arrived absent first lasting there =>
    rw [brought_of_absent absent] at keeps
    obtain ⟨lasts, stays⟩ := lasting.run keeps there
    rw [← traffic] at lasts stays
    exact .arrived (fun task mem => absent task (tasks mem))
      (fun time b mem => first time b (ended mem)) lasts stays
  | failed absent unanswered =>
    exact .failed (fun task mem => absent task (tasks mem))
      fun time b mem => unanswered time b (ended mem)

theorem Stage.resumeTask (h : Stage n blocks w) (ordered : w.Ordered limit) :
    Stage n blocks (w.resumeTask n) := by
  cases found : w.task? n with
  | none =>
    rw [World.resumeTask, found]
    exact h
  | some task =>
    have here := mem_of_task? found
    cases h with
    | working id s done block rest tasks split first underway =>
      obtain rfl := tasks task here
      rw [World.resumeTask, found]
      exact resumeWriting_stage ordered here split first underway
    | arrived absent => exact absurd here (absent task)
    | failed absent => exact absurd here (absent task)

theorem Stage.cancelTask (h : Stage n blocks w) : Stage n blocks (w.cancelTask n) := by
  cases found : w.task? n with
  | none =>
    rw [World.cancelTask, found]
    exact h
  | some task =>
    have here := mem_of_task? found
    cases h with
    | working id s done block rest tasks split first underway =>
      obtain rfl := tasks task here
      rw [World.cancelTask, found]
      show Stage n blocks (((w.dropTask n).moved (.cancel (.task n))).dropSegmenter s)
      refine .failed (fun task => ?_) (underway.unanswered.of_same ?_)
      · rw [World.dropSegmenter, applyHoldings_tasks, moved_tasks]
        exact not_mem_dropTask w n task
      · rw [World.dropSegmenter, applyHoldings_ended, moved_ended]
        rfl
    | arrived absent => exact absurd here (absent task)
    | failed absent => exact absurd here (absent task)

theorem Stage.step (h : Stage n blocks w) (ordered : w.Ordered limit) (begun : n < limit)
    {e : Event} (keeps : e.Keeps (w.brought n blocks)) : Stage n blocks (w.step limit e) := by
  obtain rfl | rfl | other := Event.own_cases begun e
  · exact h.resumeTask ordered
  · exact h.cancelTask
  · exact h.confined other
      (step_confined (fun holding => holding.keeps _) (keeps.makes limit))

theorem Stage.through (h : Stage n blocks w) (ordered : w.Ordered limit) (begun : n < limit)
    {events : List Event} (undisturbed : w.Undisturbed n blocks limit events) :
    Stage n blocks (w.through limit events) := by
  induction events generalizing w limit with
  | nil => exact h
  | cons e rest ih =>
    obtain ⟨keeps, undisturbed⟩ := undisturbed
    exact ih (h.step ordered begun keeps) (ordered.step e) (by omega) undisturbed

end World

end NamedContent
