import Mathlib
import NamedContent.Proofs.World.Confined
import NamedContent.Proofs.World.Namespaces

/-!
# Puts that are given up

Whoever gives up a put may drop the segmenter with it, or keep it: then the segmenter
goes back to its place as the put has left it. With this a world goes on to be in order,
each act is about one task, and the ledger of the namespaces is kept. Events by
themselves are acts, so all this holds where nothing is given up too.
-/

set_option autoImplicit false

namespace NamedContent

namespace World

/-- Drops a task. A segmenter that it has goes back to its place. -/
def giveUp (w : World) (n : Nat) : World :=
  match w.task? n with
  | some (.writing id s _ _) | some (.closing id s) =>
    ((w.dropTask n).moved (.cancel (.task n))).fileSegmenter id s
  | _ => w.cancelTask n

/-- All that can happen where segmenters outlive the puts that are given up. -/
inductive Act where
  | event (e : Event)
  | giveUp (task : Nat)

def act (w : World) (n : Nat) : Act → World
  | .event e => w.step n e
  | .giveUp task => w.giveUp task

def throughActs (w : World) (n : Nat) : List Act → World
  | [] => w
  | a :: rest => (w.act n a).throughActs (n + 1) rest

theorem throughActs_append (w : World) (n : Nat) (acts rest : List Act) :
    w.throughActs n (acts ++ rest) =
      (w.throughActs n acts).throughActs (n + acts.length) rest := by
  induction acts generalizing w n with
  | nil => rfl
  | cons a acts ih =>
    show (w.act n a).throughActs (n + 1) (acts ++ rest) = _
    rw [ih, List.length_cons, Nat.add_assoc, Nat.add_comm 1]
    rfl

/-- The world after these acts from its beginning. -/
def lived (config : Buffer.Config) (key : Ed25519.SigningKey) (acts : List Act) : World :=
  (World.ofConfig config key).throughActs 0 acts

theorem lived_append (config : Buffer.Config) (key : Ed25519.SigningKey) (acts rest : List Act) :
    lived config key (acts ++ rest) = (lived config key acts).throughActs acts.length rest := by
  rw [lived, throughActs_append, Nat.zero_add]
  rfl

inductive GivenUp (w : World) (n : Nat) : World → Prop where
  | dropped : GivenUp w n (w.cancelTask n)
  | kept {task : Task} {s : Segmenter} (id : String) (here : (n, task) ∈ w.tasks)
      (has : task.segmenter? = some s) :
      GivenUp w n (((w.dropTask n).moved (.cancel (.task n))).fileSegmenter id s)

variable {w : World} {n k limit : Nat}

theorem givenUp_giveUp (w : World) (n : Nat) : w.GivenUp n (w.giveUp n) := by
  rw [giveUp]
  cases found : w.task? n with
  | none => exact .dropped
  | some task =>
    have here := mem_of_task? found
    cases task with
    | writing id s block rest => exact .kept id here rfl
    | closing id s => exact .kept id here rfl
    | calling | expressing | fetching | sending => exact .dropped

section Filing

variable (w : World) (id : String) (s : Segmenter)

@[simp] theorem fileSegmenter_tasks : (w.fileSegmenter id s).tasks = w.tasks := by
  rw [fileSegmenter]
  split
  · exact applyHoldings_tasks _ _
  · rfl

@[simp] theorem fileSegmenter_ended : (w.fileSegmenter id s).ended = w.ended := by
  rw [fileSegmenter]
  split
  · exact applyHoldings_ended _ _
  · rfl

@[simp] theorem fileSegmenter_returned : (w.fileSegmenter id s).returned = w.returned := by
  rw [fileSegmenter]
  split
  · exact applyHoldings_returned _ _
  · rfl

end Filing

theorem Ordered.giveUp (h : w.Ordered limit) (n : Nat) : (w.giveUp n).Ordered limit := by
  have given := w.givenUp_giveUp n
  generalize w.giveUp n = w' at given
  cases given with
  | dropped => exact h.cancelTask n
  | kept id here =>
    have dropped : ((w.dropTask n).moved (.cancel (.task n))).Ordered limit :=
      (h.dropTask n).moved (h.begun _ here) (fun _ _ _ _ => not_mem_dropTask w n _) rfl
    exact dropped.fileSegmenter id _

theorem Ordered.act (h : w.Ordered n) (a : Act) : (w.act n a).Ordered (n + 1) := by
  cases a with
  | event e => exact h.step e
  | giveUp task => exact Orderly.mono (h.giveUp task) n.le_succ

theorem lived_ordered (config : Buffer.Config) (key : Ed25519.SigningKey) (acts : List Act) :
    (lived config key acts).Ordered acts.length := by
  induction acts using List.reverseRecOn with
  | nil => exact ofConfig_ordered config key
  | append_singleton acts a ih =>
    rw [lived_append, List.length_append]
    exact ih.act a

def Act.own (n : Nat) : Act → Nat
  | .event e => e.own n
  | .giveUp task => task

theorem Act.own_cases {n limit : Nat} (begun : n < limit) (a : Act) :
    a = .event (.resume n) ∨ a = .event (.cancel n) ∨ a = .giveUp n ∨ a.own limit ≠ n := by
  cases a with
  | event e =>
    obtain rfl | rfl | other := e.own_cases begun
    · exact .inl rfl
    · exact .inr (.inl rfl)
    · exact .inr (.inr (.inr other))
  | giveUp task =>
    by_cases own : task = n
    · exact .inr (.inr (.inl (congrArg Act.giveUp own)))
    · exact .inr (.inr (.inr own))

theorem Worked.giveUp {P : Traffic.Move Caller → Prop}
    (holds : ∀ holding : Segmenter.Holding, P holding.move) (cancels : P (.cancel (.task n)))
    (w : World) : Worked n P w (w.giveUp n) := by
  have given := w.givenUp_giveUp n
  generalize w.giveUp n = w' at given
  cases given with
  | dropped => exact .cancelTask holds cancels w
  | kept id => exact ((dropTask .refl).moved cancels).fileSegmenter holds id _

theorem act_apart (w : World) (n : Nat) (a : Act) :
    Confined (a.own n) (fun _ => True) w (w.act n a) := by
  cases a with
  | event e => exact w.step_apart n e
  | giveUp task => exact (Worked.giveUp (fun _ => trivial) trivial w).confined

/-- The buffer of a world has seen moves and nothing else. -/
theorem lived_traffic (config : Buffer.Config) (key : Ed25519.SigningKey) (acts : List Act) :
    ∃ ms, (lived config key acts).traffic = (Traffic.ofConfig config).run ms := by
  induction acts using List.reverseRecOn with
  | nil => exact ⟨[], rfl⟩
  | append_singleton acts a ih =>
    obtain ⟨ms, before⟩ := ih
    obtain ⟨ms', -, after⟩ := (act_apart (lived config key acts) acts.length a).moves
    refine ⟨ms ++ ms', ?_⟩
    rw [lived_append, Traffic.run_append, ← before]
    exact after

theorem Unborn.act (h : w.Unborn k) (other : k ≠ n) (a : Act) :
    (w.act n a).Unborn k := by
  cases a with
  | event e => exact h.step other e
  | giveUp task =>
    by_cases own : k = task
    -- a task that has not begun cannot be given up
    · subst own
      have none := task?_eq_none h.tasks
      have same : w.giveUp k = w := by
        rw [World.giveUp, none]
        dsimp only
        rw [cancelTask, none]
      show (w.giveUp k).Unborn k
      rwa [same]
    · have confined := w.act_apart n (.giveUp task)
      constructor
      · exact fun task mem => (confined.tasks _ mem).elim (h.tasks task) own
      · exact fun x mem => (confined.ended _ mem).elim (h.ended x) own
      · exact fun loan mem => (confined.returned _ mem).elim (h.returned loan) own

theorem Unborn.throughActs (h : w.Unborn k) {acts : List Act}
    (other : k < n ∨ n + acts.length ≤ k) : (w.throughActs n acts).Unborn k := by
  induction acts generalizing w n with
  | nil => exact h
  | cons a rest ih =>
    rw [List.length_cons] at other
    exact ih (h.act (by omega) a) (by omega)

theorem lived_unborn (config : Buffer.Config) (key : Ed25519.SigningKey) (acts : List Act) :
    (lived config key acts).Unborn acts.length :=
  Unborn.throughActs (w := .ofConfig config key)
    ⟨by simp [World.ofConfig], by simp [World.ofConfig], by simp [World.ofConfig]⟩
    (.inr (Nat.zero_add _).le)

/-- The act registers a namespace or releases one by hand. -/
def Act.scopes : Act → Bool
  | .event e => e.scopes
  | .giveUp _ => false

theorem Kept.giveUp (h : w.Kept []) (ordered : w.Ordered limit) (n : Nat) :
    (w.giveUp n).Kept [] := by
  have given := w.givenUp_giveUp n
  generalize w.giveUp n = w' at given
  cases given with
  | dropped => exact h.cancelTask ordered.distinct ordered.onBuffer n
  | @kept task s id here has =>
    have lent : (w.dropTask n).Kept [s] := by
      have lent := h.lend ordered.distinct here
      rwa [has] at lent
    exact Kept.fileSegmenter (lent.moved (by simp)) id

theorem Kept.act (h : w.Kept []) (ordered : w.Ordered n) {a : Act} (unscoped : a.scopes = false) :
    (w.act n a).Kept [] := by
  cases a with
  | event e => exact h.step ordered unscoped
  | giveUp task => exact h.giveUp ordered task

theorem lived_kept (config : Buffer.Config) (key : Ed25519.SigningKey) {acts : List Act}
    (unscoped : ∀ a ∈ acts, a.scopes = false) : (lived config key acts).Kept [] := by
  induction acts using List.reverseRecOn with
  | nil => exact ofConfig_kept config key
  | append_singleton acts a ih =>
    rw [lived_append]
    have before := ih fun a' mem => unscoped a' (List.mem_append_left _ mem)
    exact before.act (lived_ordered config key acts) (unscoped a (by simp))

theorem throughActs_events (w : World) (n : Nat) (events : List Event) :
    w.throughActs n (events.map .event) = w.through n events := by
  induction events generalizing w n with
  | nil => rfl
  | cons e rest ih => exact ih (w.step n e) (n + 1)

theorem reached_eq_lived (config : Buffer.Config) (key : Ed25519.SigningKey)
    (events : List Event) : reached config key events = lived config key (events.map .event) :=
  (throughActs_events _ 0 events).symm

section Events

variable (config : Buffer.Config) (key : Ed25519.SigningKey) {events : List Event}

theorem reached_ordered (events : List Event) :
    (reached config key events).Ordered events.length := by
  have ordered := lived_ordered config key (events.map .event)
  rwa [← reached_eq_lived, List.length_map] at ordered

theorem reached_traffic (events : List Event) :
    ∃ ms, (reached config key events).traffic = (Traffic.ofConfig config).run ms := by
  rw [reached_eq_lived]
  exact lived_traffic config key _

theorem reached_unborn (events : List Event) :
    (reached config key events).Unborn events.length := by
  have unborn := lived_unborn config key (events.map .event)
  rwa [← reached_eq_lived, List.length_map] at unborn

theorem reached_kept (unscoped : ∀ e ∈ events, e.scopes = false) :
    (reached config key events).Kept [] := by
  rw [reached_eq_lived]
  exact lived_kept config key (List.forall_mem_map.mpr unscoped)

end Events

end World

end NamedContent
