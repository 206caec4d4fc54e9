import Mathlib
import NamedContent.Proofs.Traffic.Waiting
import NamedContent.Proofs.World.Events

/-!
# The registry while servers come and go

A server that is stopped cancels the requests of the interests in flight, and
does nothing else to the buffer. So a shutdown is one of the runs after which
the table of waiters and the matcher are in step.
-/

set_option autoImplicit false

namespace NamedContent

namespace World

def requesters (serves : List Serve) : List Caller :=
  serves.filterMap fun v =>
    match v.stage with
    | .requesting => some (.serve v.id)
    | _ => none

theorem wakeAll_traffic (w : World) (cs : List Caller) : (w.wakeAll cs).traffic = w.traffic := by
  obtain ⟨_, _, eq⟩ := w.wakeAll_eq cs
  rw [eq]

theorem wakeReceiver_traffic (w : World) (i : Nat) : (w.wakeReceiver i).traffic = w.traffic := by
  obtain ⟨_, eq⟩ := w.wakeReceiver_eq i
  rw [eq]

theorem abandon_traffic (w : World) (v : Serve) :
    (w.abandon v).traffic = w.traffic.run ((requesters [v]).map .cancel) := by
  obtain ⟨id, face, interest, stage⟩ := v
  cases stage with
  | fresh => rfl
  | requesting => exact moved_traffic w _
  | sending i block =>
    show ((World.wakeAll _ _).wakeReceiver i).traffic = w.traffic
    rw [wakeReceiver_traffic, wakeAll_traffic]
    rfl

theorem stopServer_traffic {w : World} {s : Server} (running : w.server = some s) :
    w.stopServer.traffic = w.traffic.run ((requesters s.inFlight).map .cancel) := by
  have abandoned (serves : List Serve) (w : World) :
      (serves.foldl abandon w).traffic = w.traffic.run ((requesters serves).map .cancel) := by
    induction serves generalizing w with
    | nil => rfl
    | cons v rest ih =>
      have split : requesters (v :: rest) = requesters [v] ++ requesters rest :=
        List.filterMap_append (l := [v])
      rw [List.foldl_cons, ih, abandon_traffic, split, List.map_append, Traffic.run_append]
  rw [stopServer, running]
  show (World.wakeAll _ _).traffic = _
  rw [wakeAll_traffic]
  exact abandoned s.inFlight w

end World

namespace Traffic

/-- The table of waiters and the matcher stay in step, and nobody is left
behind. After any moves the matcher holds just the interests of the waiters,
each once. When no call can go on before the buffer is closed, the waiters are
the requests in progress and the open filters that have not received the block
that exhausts them. Closing leaves no waiters, whatever comes later. And a
server that is shut down only cancels requests, so it is covered too. -/
theorem registry_exact {κ : Type} [DecidableEq κ] (config : Buffer.Config) (ms : List (Move κ)) :
    let start : Traffic κ := ofConfig config
    let t := start.run ms
    (t.buffer.pending.map (·.id)).Nodup ∧
    t.buffer.matcher.registrations.Perm
      (t.buffer.pending.map fun w => (w.interest.name, w.id)) ∧
    (start.DropsOpen ms → t.Quiet → t.buffer.phase ≠ .closed →
      (t.buffer.pending.map Waiter.wait).Perm
        (t.requestWaits (Account.empty.through start ms).asked ++
          t.filterWaits (filtersThrough [] start ms))) ∧
    (∀ m, t.Closing m → (t.step m).answer ≠ none → (t.step m).traffic.buffer.phase = .closed) ∧
    (t.buffer.phase = .closed → ∀ rest, (t.run rest).buffer.phase = .closed ∧
      (t.run rest).buffer.pending = [] ∧ (t.run rest).buffer.matcher = .empty) ∧
    ∀ (w : World) (s : Server), w.server = some s →
      w.stopServer.traffic = w.traffic.run ((World.requesters s.inFlight).map .cancel) := by
  intro start t
  have sound : t.Sound := run_sound config ms
  refine ⟨sound.buffer.distinct, Buffer.registrations_perm sound.buffer (run_tidy config ms),
    ?_, ?_, ?_, fun _ _ running => World.stopServer_traffic running⟩
  · intro own quiet phase
    have inStep : t.InStep (filtersThrough [] start ms) :=
      run_inStep (ofConfig_sound config) (ofConfig_inStep config) ms own
    have balanced : t.Balanced (Account.empty.through start ms) :=
      (through_invariants (ofConfig_sound config) rfl (ofConfig_balanced config)
        (fun _ => ofConfig_unshared config) ms).1
    exact inStep.waits_perm sound balanced quiet phase
  · intro m closing ends
    obtain ⟨f, outcome, shows⟩ := t.step_explained m
    rw [shows.traffic]
    exact outcome.closes closing (shows.answer ▸ ends)
  · intro closed rest
    obtain ⟨phase, nobody⟩ := run_closed sound closed (run_nobody config ms closed) rest
    have later : t.run rest = start.run (ms ++ rest) := (run_append start ms rest).symm
    refine ⟨phase, nobody, Buffer.matcher_eq_empty ?_ ?_ nobody⟩
    · rw [later]
      exact (run_sound config (ms ++ rest)).buffer
    · rw [later]
      exact run_tidy config (ms ++ rest)

/-- Three filters are opened, of which one runs out with the block that is put
and one is dropped, and then a request waits. -/
def registryMoves : List (Move Nat) :=
  [.subscribe (.ofName (letterBlock 97).name) (some 1),
    .subscribe (.ofName (letterBlock 98).name) none,
    .subscribe (.ofName (letterBlock 99).name) none, .put 0 (letterBlock 97), .unsubscribe 1,
    .request 1 (.ofName (letterBlock 98).name) 50]

/-- Then one filter and the request are in the table, and a close takes both out for good. -/
theorem registry_exact_two : ∃ t : Traffic Nat, t = (ofConfig {}).run registryMoves ∧
    ((ofConfig {}).DropsOpen registryMoves ∧ t.Quiet ∧ t.buffer.phase ≠ .closed ∧
      (t.buffer.pending.map Waiter.wait).Perm
        (t.requestWaits (Account.empty.through (ofConfig {}) registryMoves).asked ++
          t.filterWaits (filtersThrough [] (ofConfig {}) registryMoves)) ∧
      t.buffer.pending.map (·.id) = [2, 3]) ∧
    t.Closing (.close 2) ∧ (t.step (.close 2)).answer ≠ none ∧
    (t.run [.close 2]).buffer.phase = .closed ∧
    ∀ rest, (((ofConfig {}).run (registryMoves ++ [.close 2])).run rest).buffer.pending = [] := by
  have own : (ofConfig {}).DropsOpen registryMoves := by
    refine ⟨nofun, nofun, nofun, nofun, ?_, nofun, trivial⟩
    rintro id ⟨⟩
    decide +kernel
  have closed : ((ofConfig {}).run (registryMoves ++ [.close 2])).buffer.phase = .closed := by
    decide +kernel
  obtain ⟨-, -, table, closes, -⟩ := registry_exact {} registryMoves
  obtain ⟨-, -, -, -, stays, -⟩ := registry_exact {} (registryMoves ++ [.close 2])
  have calls : ((ofConfig {}).run registryMoves).calls = [(1, .request 3 50 .empty)] := by
    decide +kernel
  have early : ¬50 ≤ ((ofConfig {}).run registryMoves).now := by decide +kernel
  have phase : ((ofConfig {}).run registryMoves).buffer.phase ≠ .closed := by decide +kernel
  have ids : ((ofConfig {}).run registryMoves).buffer.pending.map (·.id) = [2, 3] := by
    decide +kernel
  have ends : (((ofConfig {}).run registryMoves).step (.close 2)).answer ≠ none := by
    decide +kernel
  -- from here on only these facts about the state count
  generalize (ofConfig {}).run registryMoves = t at table closes calls early phase ids ends ⊢
  have quiet : t.Quiet := by
    intro who
    by_cases same : who = 1
    · subst same
      have waits : t.call? 1 = some (.request 3 50 .empty) := by rw [call?, calls]; rfl
      simp only [resume, waits, if_neg early]
    · have absent : t.call? who = none := by
        rw [call?_eq_none, calls]
        simpa using same
      simp only [resume, absent]
  have closing : t.Closing (.close 2) := ⟨2, .inl rfl⟩
  exact ⟨t, rfl, ⟨own, quiet, phase, table own quiet phase, ids⟩, closing, ends,
    closes _ closing ends, fun rest => (stays closed rest).2.1⟩

end Traffic

end NamedContent
