import Mathlib
import NamedContent.Proofs.Segmenter.Retrying
import NamedContent.Proofs.World.GivingUp

/-!
# The course of a put

A task that puts content for a segmenter has the segmenter, which stays as it is while
block after block goes to the buffer. What the task gives back at its end is this
segmenter if the put has failed, and the completed one if all blocks have arrived.
-/

set_option autoImplicit false

namespace NamedContent

namespace World

variable {w w' : World} {n limit : Nat} {id : String} {left : Segmenter}
  {whole : Option Segmenter}

structure Unended (w : World) (n : Nat) : Prop where
  ended : ∀ x, (n, x) ∉ w.ended
  returned : ∀ loan, (n, loan) ∉ w.returned

/-- How the task stands that puts content. While it is at work, and after it has failed,
its segmenter is as it was left; after its good end it is completed. -/
structure Course (w : World) (n : Nat) (id : String) (left : Segmenter)
    (whole : Option Segmenter) : Prop where
  working : ∀ task, (n, task) ∈ w.tasks → w.Unended n ∧
    ∃ block rest, task = .writing id left block rest ∧ whole = some (left.complete rest).1
  failed : ∀ time fault loan, (n, time, .error fault) ∈ w.ended → (n, loan) ∈ w.returned →
    loan = .segmenter id left
  arrived : ∀ time answer loan, (n, time, .ok answer) ∈ w.ended → (n, loan) ∈ w.returned →
    ∃ s, whole = some s ∧ loan = .segmenter id s

theorem Unended.of_same (h : w.Unended n) (ended : ∀ x, (n, x) ∈ w'.ended → (n, x) ∈ w.ended)
    (returned : ∀ loan, (n, loan) ∈ w'.returned → (n, loan) ∈ w.returned) : w'.Unended n :=
  ⟨fun x mem => h.ended x (ended x mem), fun loan mem => h.returned loan (returned loan mem)⟩

theorem Unended.moved (h : w.Unended n) (m : Traffic.Move Caller) : (w.moved m).Unended n :=
  h.of_same (by simp) (by simp)

theorem Unended.holdings (h : w.Unended n) (holdings : List Segmenter.Holding) :
    (w.applyHoldings holdings).Unended n :=
  h.of_same (by simp) (by simp)

theorem Course.of_same (h : w.Course n id left whole)
    (tasks : ∀ task, (n, task) ∈ w'.tasks → (n, task) ∈ w.tasks)
    (ended : ∀ x, (n, x) ∈ w'.ended → (n, x) ∈ w.ended)
    (returned : ∀ loan, (n, loan) ∈ w'.returned → (n, loan) ∈ w.returned) :
    w'.Course n id left whole where
  working := fun task mem =>
    have ⟨unended, stage⟩ := h.working task (tasks task mem)
    ⟨unended.of_same ended returned, stage⟩
  failed := fun time fault loan fails gives =>
    h.failed time fault loan (ended _ fails) (returned _ gives)
  arrived := fun time answer loan ends gives =>
    h.arrived time answer loan (ended _ ends) (returned _ gives)

theorem mem_returned_finishWith {loan loan' : Loan} {outcome : Outcome}
    (mem : (n, loan') ∈ (w.finishWith n loan outcome).returned) :
    (n, loan') ∈ w.returned ∨ loan' = loan := by
  rcases List.mem_append.mp mem with old | new
  · exact .inl old
  · exact .inr (Prod.mk.inj (List.mem_singleton.mp new)).2

section Unended

variable (h : w.Unended n)
include h

theorem Unended.finishWith {loan loan' : Loan} {outcome outcome' : Outcome} {time : Nat}
    (ended : (n, time, outcome') ∈ (w.finishWith n loan outcome).ended)
    (returned : (n, loan') ∈ (w.finishWith n loan outcome).returned) :
    outcome' = outcome ∧ loan' = loan :=
  ⟨(mem_ended_finishWith ended).resolve_left (h.ended _),
    (mem_returned_finishWith returned).resolve_left (h.returned _)⟩

theorem Unended.fails (fault : Fault) :
    (w.finishWith n (.segmenter id left) (.error fault)).Course n id left whole where
  working := fun task mem => absurd mem (not_mem_dropTask w n task)
  failed := fun _ _ _ ended returned => (h.finishWith ended returned).2
  arrived := fun _ _ _ ended returned => by cases (h.finishWith ended returned).1

theorem Unended.endWriting {writing : Segmenter.Writing} (arrived : writing.first ≠ none) :
    (w.endWriting n id left writing).Course n id left (some (left.complete writing).1) := by
  have last := h.holdings (left.complete writing).2
  obtain ⟨first, found⟩ := Option.ne_none_iff_exists'.mp arrived
  rw [World.endWriting, found]
  constructor
  · exact fun task mem => absurd mem (not_mem_dropTask _ n task)
  · intro _ _ _ ended returned
    cases (last.finishWith ended returned).1
  · exact fun _ _ _ ended returned => ⟨_, rfl, (last.finishWith ended returned).2⟩

theorem Unended.putBlocks {blocks : List Block} (writing : Segmenter.Writing)
    (some : blocks ≠ [] ∨ writing.first ≠ none) :
    (World.putBlocks n id left blocks w writing).Course n id left
      (.some (left.complete writing).1) := by
  induction blocks generalizing w writing with
  | nil => exact h.endWriting (some.resolve_left (· rfl))
  | cons block rest ih =>
    have next := h.moved (.put (.task n) block)
    rw [World.putBlocks, move_eq]
    cases (w.traffic.step (.put (.task n) block)).answer with
    | none =>
      refine ⟨fun task mem => ?_, fun _ _ _ ended => absurd ended (next.ended _),
        fun _ _ _ ended => absurd ended (next.ended _)⟩
      exact ⟨⟨next.ended, next.returned⟩, block, _, eq_of_mem_setTask mem, rfl⟩
    | some result =>
      cases result with
      | error error => exact next.fails _
      | ok _ => exact ih next (writing.arrived block rest) (.inr (Option.some_ne_none _))

theorem Unended.resumeWriting {block : Block} {rest : Segmenter.Writing}
    (working : w.Course n id left (some (left.complete rest).1)) :
    (w.resumeWriting n id left block rest).Course n id left (some (left.complete rest).1) := by
  have next := h.moved (.resume (.task n))
  rw [World.resumeWriting, move_eq]
  cases (w.traffic.step (.resume (.task n))).answer with
  | none => exact working.of_same (by simp) (by simp) (by simp)
  | some result =>
    cases result with
    | error error => exact next.fails _
    | ok _ => exact next.putBlocks (rest.arrived block rest.blocks) (.inr (Option.some_ne_none _))

theorem Unended.beginWriting (s : Segmenter) (name : Name) (content : Bytes)
    (options : Segmenter.Options) :
    (w.beginWriting n id s name content options).Course n id
      (s.leftBy w.keys (Int64.ofNat (1000 * w.now)) name content options)
      (s.completed? w.keys (Int64.ofNat (1000 * w.now)) name content options) := by
  rw [World.beginWriting, Segmenter.leftBy, Segmenter.completed?]
  cases planned : s.plan w.keys (Int64.ofNat (1000 * w.now)) name content options with
  | error error => exact h.fails _
  | ok plan =>
    obtain ⟨_, _, -, -, -, -, prepares⟩ := Segmenter.plan_eq_ok planned
    obtain ⟨entered, holdings, written⟩ := plan
    cases written with
    | error error => exact (h.holdings holdings).fails _
    | ok writing =>
      have prepared := Segmenter.prepare_eq_ok prepares.symm
      exact (h.holdings holdings).putBlocks writing (.inl prepared.blocks_ne_nil)

end Unended

section Course

variable (h : w.Course n id left whole)
include h

theorem Course.resumeTask : (w.resumeTask n).Course n id left whole := by
  cases found : w.task? n with
  | none =>
    rw [World.resumeTask, found]
    exact h
  | some task =>
    obtain ⟨unended, block, rest, rfl, rfl⟩ := h.working task (mem_of_task? found)
    rw [World.resumeTask, found]
    exact unended.resumeWriting h

theorem Course.cancelTask : (w.cancelTask n).Course n id left whole := by
  cases found : w.task? n with
  | none =>
    rw [World.cancelTask, found]
    exact h
  | some task =>
    obtain ⟨-, block, rest, rfl, -⟩ := h.working task (mem_of_task? found)
    rw [World.cancelTask, found]
    apply h.of_same
    · simp [World.dropSegmenter, World.dropTask]
    · simp [World.dropSegmenter, World.dropTask]
    · simp [World.dropSegmenter, World.dropTask]

theorem Course.giveUp : (w.giveUp n).Course n id left whole := by
  have given := w.givenUp_giveUp n
  generalize w.giveUp n = w' at given
  cases given with
  | dropped => exact h.cancelTask
  | kept =>
    apply h.of_same
    · simp [World.dropTask]
    · simp [World.dropTask]
    · simp [World.dropTask]

theorem Course.act (begun : n < limit) (a : Act) :
    (w.act limit a).Course n id left whole := by
  obtain rfl | rfl | rfl | other := a.own_cases begun
  · exact h.resumeTask
  · exact h.cancelTask
  · exact h.giveUp
  · have confined := w.act_apart limit a
    apply h.of_same
    · exact fun task mem => (confined.tasks _ mem).resolve_right other.symm
    · exact fun x mem => (confined.ended _ mem).resolve_right other.symm
    · exact fun loan mem => (confined.returned _ mem).resolve_right other.symm

theorem Course.throughActs (begun : n < limit) (acts : List Act) :
    (w.throughActs limit acts).Course n id left whole := by
  induction acts generalizing w limit with
  | nil => exact h
  | cons a rest ih => exact ih (h.act begun a) (by omega)

end Course

/-- The put of a segmenter, at any time after it has begun. -/
theorem lived_course (config : Buffer.Config) (key : Ed25519.SigningKey) {before : List Act}
    {s : Segmenter} (filed : (lived config key before).segmenters.find? id = some s) (name : Name)
    (content : Bytes) (options : Segmenter.Options) (after : List Act) :
    let w := lived config key before
    let put := Act.event (.write id name content options)
    (lived config key (before ++ put :: after)).Course before.length id
      (s.leftBy w.keys (Int64.ofNat (1000 * w.now)) name content options)
      (s.completed? w.keys (Int64.ofNat (1000 * w.now)) name content options) := by
  intro w put
  have unborn : w.Unborn before.length := lived_unborn config key before
  have unended : (Session.takeSegmenter w id).Unended before.length :=
    ⟨unborn.ended, unborn.returned⟩
  have begun : (w.act before.length put).Course before.length id
      (s.leftBy w.keys (Int64.ofNat (1000 * w.now)) name content options)
      (s.completed? w.keys (Int64.ofNat (1000 * w.now)) name content options) := by
    show (w.step before.length (.write id name content options)).Course _ _ _ _
    rw [step_write filed]
    exact unended.beginWriting s name content options
  rw [lived_append]
  exact begun.throughActs (Nat.lt_succ_self _) after

/-- A task that puts content and ends well has taken a segmenter from its place, and
gives it back completed. -/
theorem lived_arrived {config : Buffer.Config} {key : Ed25519.SigningKey} {before : List Act}
    {name : Name} {content : Bytes} {options : Segmenter.Options} {after : List Act} {time : Nat}
    {answer : Answer} {loan : Loan}
    (ended : (before.length, time, .ok answer) ∈
      (lived config key (before ++ .event (.write id name content options) :: after)).ended)
    (returned : (before.length, loan) ∈
      (lived config key (before ++ .event (.write id name content options) :: after)).returned) :
    let w := lived config key before
    ∃ s s', w.segmenters.find? id = some s ∧
      s.completed? w.keys (Int64.ofNat (1000 * w.now)) name content options = some s' ∧
      loan = .segmenter id s' := by
  intro w
  cases filed : w.segmenters.find? id with
  | some s =>
    obtain ⟨s', arrives, same⟩ :=
      (lived_course config key filed name content options after).arrived _ _ _ ended returned
    exact ⟨s, s', rfl, arrives, same⟩
  | none =>
    -- there is nothing to put with, so the task does not begin
    have unborn : w.Unborn before.length := lived_unborn config key before
    have nothing : w.act before.length (.event (.write id name content options)) = w := by
      show w.step before.length (.write id name content options) = w
      rw [step, Session.withSegmenter, filed]
      rfl
    have never := unborn
    rw [← nothing] at never
    rw [lived_append] at ended
    exact absurd ended ((never.throughActs (.inl (Nat.lt_succ_self _))).ended _)

end World

end NamedContent
