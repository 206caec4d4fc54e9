import Mathlib
import NamedContent.Proofs.World.Tasks
import NamedContent.Proofs.World.Working

/-!
# What an event leaves alone

An event is about one task. Other tasks stay where they are and none of them
ends, and the buffer sees nothing but moves of the kinds that the event makes.
-/

set_option autoImplicit false

namespace NamedContent

namespace World

/-- From one world to a later one there were only moves of a kind, and nothing
has happened to any task but one. -/
structure Confined (own : Nat) (P : Traffic.Move Caller → Prop) (w w' : World) : Prop where
  moves : ∃ ms, (∀ m ∈ ms, P m) ∧ w'.traffic = w.traffic.run ms
  tasks : ∀ x ∈ w'.tasks, x ∈ w.tasks ∨ x.1 = own
  ended : ∀ x ∈ w'.ended, x ∈ w.ended ∨ x.1 = own
  returned : ∀ x ∈ w'.returned, x ∈ w.returned ∨ x.1 = own

namespace Confined

variable {w w' w'' : World} {own : Nat} {P : Traffic.Move Caller → Prop}

theorem of_same (traffic : w'.traffic = w.traffic) (tasks : w'.tasks = w.tasks)
    (ended : w'.ended = w.ended) (returned : w'.returned ⊆ w.returned) : Confined own P w w' where
  moves := ⟨[], by simp, traffic⟩
  tasks := fun _ mem => .inl (tasks ▸ mem)
  ended := fun _ mem => .inl (ended ▸ mem)
  returned := fun _ mem => .inl (returned mem)

theorem refl (w : World) : Confined own P w w := of_same rfl rfl rfl (List.Subset.refl _)

theorem trans (h : Confined own P w w') (h' : Confined own P w' w'') : Confined own P w w'' where
  moves := by
    obtain ⟨ms, kind, traffic⟩ := h.moves
    obtain ⟨ms', kind', traffic'⟩ := h'.moves
    refine ⟨ms ++ ms', ?_, by rw [traffic', traffic, Traffic.run_append]⟩
    intro m mem
    exact (List.mem_append.mp mem).elim (kind m) (kind' m)
  tasks := fun x mem => (h'.tasks x mem).elim (h.tasks x) .inr
  ended := fun x mem => (h'.ended x mem).elim (h.ended x) .inr
  returned := fun x mem => (h'.returned x mem).elim (h.returned x) .inr

theorem moved (h : Confined own P w w') {m : Traffic.Move Caller} (kind : P m) :
    Confined own P w (w'.moved m) := by
  refine h.trans ⟨⟨[m], by simpa using kind, moved_traffic _ _⟩, ?_, ?_, ?_⟩
  · exact fun _ mem => .inl (moved_tasks w' m ▸ mem)
  · exact fun _ mem => .inl (moved_ended w' m ▸ mem)
  · exact fun _ mem => .inl (moved_returned w' m ▸ mem)

theorem dropTask (h : Confined own P w w') (n : Nat) : Confined own P w (w'.dropTask n) :=
  h.trans ⟨⟨[], by simp, rfl⟩, fun _ mem => .inl (List.mem_of_mem_filter mem),
    fun _ mem => .inl mem, fun _ mem => .inl mem⟩

theorem mem_snoc {α : Type} {xs : List (Nat × α)} {a : α} {x : Nat × α}
    (mem : x ∈ xs ++ [(own, a)]) : x ∈ xs ∨ x.1 = own := by
  rcases List.mem_append.mp mem with old | new
  · exact .inl old
  · exact .inr (congrArg Prod.fst (List.mem_singleton.mp new))

theorem setTask (h : Confined own P w w') (task : Task) :
    Confined own P w (w'.setTask own task) := by
  refine h.trans
    ⟨⟨[], by simp, rfl⟩, fun x mem => ?_, fun _ mem => .inl mem, fun _ mem => .inl mem⟩
  exact (mem_snoc mem).imp_left List.mem_of_mem_filter

theorem finish (h : Confined own P w w') (outcome : Outcome) :
    Confined own P w (w'.finish own outcome) :=
  (h.dropTask own).trans
    ⟨⟨[], by simp, rfl⟩, fun _ mem => .inl mem, fun _ mem => mem_snoc mem, fun _ mem => .inl mem⟩

theorem finishWith (h : Confined own P w w') (loan : Loan) (outcome : Outcome) :
    Confined own P w (w'.finishWith own loan outcome) :=
  (h.finish outcome).trans
    ⟨⟨[], by simp, rfl⟩, fun _ mem => .inl mem, fun _ mem => .inl mem, fun _ mem => mem_snoc mem⟩

end Confined

theorem Worked.confined {own : Nat} {P : Traffic.Move Caller → Prop} {w w' : World}
    (worked : Worked own P w w') : Confined own P w w' := by
  have same {w'' : World} (h : Confined own P w w'') {w' : World}
      (traffic : w'.traffic = w''.traffic) (tasks : w'.tasks = w''.tasks)
      (ended : w'.ended = w''.ended) (returned : w'.returned ⊆ w''.returned) :
      Confined own P w w' := h.trans (.of_same traffic tasks ended returned)
  induction worked with
  | refl => exact .refl w
  | moved _ kind ih => exact ih.moved kind
  | @wakeAll w' _ callers ih =>
    obtain ⟨_, _, eq⟩ := w'.wakeAll_eq callers
    rw [eq]
    exact same ih rfl rfl rfl (List.Subset.refl _)
  | setTask _ task ih => exact ih.setTask task
  | dropTask _ ih => exact ih.dropTask own
  | finish _ outcome ih => exact ih.finish outcome
  | finishWith _ loan outcome ih => exact ih.finishWith loan outcome
  | reordered _ _ ih | onNetwork _ _ ih | places _ _ _ _ _ ih =>
    exact same ih rfl rfl rfl (List.Subset.refl _)
  | collected _ ih => exact same ih rfl rfl rfl (List.nil_subset _)

def Event.own (n : Nat) : Event → Nat
  | .resume task | .cancel task => task
  | _ => n

theorem Event.own_cases {n limit : Nat} (begun : n < limit) (e : Event) :
    e = .resume n ∨ e = .cancel n ∨ e.own limit ≠ n := by
  by_cases own : e.own limit = n
  · cases e with
    | resume task => exact .inl (congrArg Event.resume own)
    | cancel task => exact .inr (.inl (congrArg Event.cancel own))
    | _ => exact absurd own begun.ne'
  · exact .inr (.inr own)

def Event.Makes (P : Traffic.Move Caller → Prop) (n : Nat) : Event → Prop
  | .move m => P (m.map .serve)
  | .put block => P (.put (.task n) block)
  | .request interest timeout => P (.request (.task n) interest timeout)
  | .drain timeout => P (.drain (.task n) timeout)
  | .close | .closeSegmenter _ => P (.close (.task n))
  | .write _ _ _ _ => ∀ block, P (.put (.task n) block)
  | .resume task => P (.resume (.task task)) ∧ ∀ block, P (.put (.task task) block)
  | .cancel task => P (.cancel (.task task))
  | _ => True

theorem Event.makes_any (n : Nat) (e : Event) : e.Makes (fun _ => True) n := by
  cases e <;> simp [Event.Makes]

variable {w : World} {n : Nat} {P : Traffic.Move Caller → Prop}

def Event.turnsKeys : Event → Bool
  | .insertKey _ | .setDefaultKey _ | .removeKey _ => true
  | _ => false

theorem step_worked {e : Event} (keyless : e.turnsKeys = false)
    (holds : ∀ holding : Segmenter.Holding, P holding.move) (makes : e.Makes P n) :
    Worked (e.own n) P w (w.step n e) := by
  cases e with
  | insertKey | setDefaultKey | removeKey => contradiction
  | move m => exact .moved .refl makes
  | put block => exact .beginCall .refl makes
  | request interest timeout => exact .beginCall .refl makes
  | drain timeout => exact .beginCall .refl makes
  | close => exact .beginCall .refl makes
  | newSegmenter id config => exact .newSegmenter holds w id config
  | setNumbering id numbering => exact .withSegmenter id fun s => .changeSegmenter w id _
  | setBlockSize id size => exact .withSegmenter id fun s => .changeSegmenter w id _
  | setNext id number => exact .withSegmenter id fun s => .changeSegmenter w id _
  | dropSegmenter id => exact .dropSegmenter holds w n id
  | write id name content options =>
    exact .withSegmenter id fun s =>
      (Worked.takeSegmenter w id).beginWriting holds makes id s name content options
  | closeSegmenter id =>
    exact .withSegmenter id fun s => (Worked.takeSegmenter w id).beginClosing makes id s
  | resume task => exact .resumeTask holds makes.2 makes.1 w
  | cancel task => exact .cancelTask holds makes w
  | putBack => exact .fileReturned holds .refl

theorem step_confined {e : Event} (holds : ∀ holding : Segmenter.Holding, P holding.move)
    (makes : e.Makes P n) : Confined (e.own n) P w (w.step n e) := by
  cases keys : e.turnsKeys with
  | false => exact (step_worked keys holds makes).confined
  | true =>
    cases e with
    | insertKey key => exact .of_same rfl rfl rfl (List.Subset.refl _)
    | removeKey publisher => exact .of_same rfl rfl rfl (List.Subset.refl _)
    | setDefaultKey publisher =>
      show Confined n P w (Session.withArgument w (w.keys.setDefault publisher) _).1
      cases w.keys.setDefault publisher with
      | ok keys => exact .of_same rfl rfl rfl (List.Subset.refl _)
      | error error => exact .refl w
    | _ => contradiction

theorem step_apart (w : World) (n : Nat) (e : Event) :
    Confined (e.own n) (fun _ => True) w (w.step n e) :=
  step_confined (fun _ => trivial) (e.makes_any n)

structure Unborn (w : World) (k : Nat) : Prop where
  tasks : ∀ task, (k, task) ∉ w.tasks
  ended : ∀ x, (k, x) ∉ w.ended
  returned : ∀ loan, (k, loan) ∉ w.returned

theorem task?_eq_none {k : Nat} (absent : ∀ task, (k, task) ∉ w.tasks) : w.task? k = none := by
  rw [Option.eq_none_iff_forall_ne_some]
  exact fun task found => absent task (mem_of_task? found)

theorem Unborn.step {k : Nat} (h : w.Unborn k) (other : k ≠ n) (e : Event) :
    (w.step n e).Unborn k := by
  by_cases own : k = e.own n
  -- a task that has not begun can neither go on nor be cancelled
  · have none := task?_eq_none h.1
    have same : w.step n e = w := by
      cases e with
      | resume task =>
        obtain rfl : k = task := own
        show w.resumeTask k = w
        rw [World.resumeTask, none]
      | cancel task =>
        obtain rfl : k = task := own
        show w.cancelTask k = w
        rw [World.cancelTask, none]
      | _ => exact absurd own other
    rwa [same]
  · have confined := w.step_apart n e
    constructor
    · exact fun task mem => (confined.tasks _ mem).elim (h.tasks task) own
    · exact fun x mem => (confined.ended _ mem).elim (h.ended x) own
    · exact fun loan mem => (confined.returned _ mem).elim (h.returned loan) own

end World

end NamedContent
