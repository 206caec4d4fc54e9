import Mathlib
import NamedContent.Proofs.World.Working

/-!
# What goes on beside the server

Tasks, segmenters, faces and subscriptions leave the interests in flight as they are.
They may wake serves and so change the order in which these go on; but no serve makes
a move meanwhile, nothing is counted, and the endpoints stay endpoints of channels
that are there.
-/

set_option autoImplicit false

namespace NamedContent

def Traffic.Move.Foreign (m : Traffic.Move Caller) : Prop := ∀ id, m.caller? ≠ some (.serve id)

theorem Traffic.Move.foreign_of_none {m : Traffic.Move Caller} (none : m.caller? = none) :
    m.Foreign := fun _ serves => by
  rw [none] at serves
  contradiction

theorem Traffic.Move.foreign_of_task {m : Traffic.Move Caller} {n : Nat}
    (own : m.caller? = some (.task n)) : m.Foreign := fun _ serves => by
  rw [own] at serves
  cases serves

def Server.unordered (s : Server) : Server :=
  { s with ready := [], deferred := [], yielded := false }

@[simp] theorem Server.unordered_wake (s : Server) (id : Nat) :
    (s.wake id).unordered = s.unordered := by
  rw [wake]
  split <;> rfl

theorem Server.unordered_wakeDeferred (s : Server) : s.wakeDeferred.unordered = s.unordered := by
  have each (ids : List Nat) (s' : Server) :
      (ids.foldl Server.wake s').unordered = s'.unordered := by
    induction ids generalizing s' with
    | nil => rfl
    | cons id rest ih => exact (ih _).trans (s'.unordered_wake id)
  exact each _ _

namespace World

structure Since (P : Traffic.Move Caller → Prop) (w w' : World) : Prop where
  moves : ∃ ms, (∀ m ∈ ms, P m) ∧ w'.traffic = w.traffic.run ms
  network : w.network.Extends w'.network

/-- From one world to a later one no serve has made a move, and the server is the same
but for the order in which its serves go on. -/
structure Aside (w w' : World) : Prop extends Since Traffic.Move.Foreign w w' where
  server : w'.server.map Server.unordered = w.server.map Server.unordered

variable {w w' w'' : World} {n : Nat}

namespace Since

variable {P Q : Traffic.Move Caller → Prop}

theorem of_same (traffic : w'.traffic = w.traffic) (network : w'.network = w.network) :
    Since P w w' := ⟨⟨[], by simp, traffic⟩, network ▸ .refl _⟩

theorem trans (h : Since P w w') (h' : Since P w' w'') : Since P w w'' where
  moves := by
    obtain ⟨ms, kind, traffic⟩ := h.moves
    obtain ⟨ms', kind', traffic'⟩ := h'.moves
    refine ⟨ms ++ ms', fun m mem => ?_, by rw [traffic', traffic, Traffic.run_append]⟩
    exact (List.mem_append.mp mem).elim (kind m) (kind' m)
  network := h.network.trans h'.network

theorem mono (h : Since P w w') (weaker : ∀ m, P m → Q m) : Since Q w w' := by
  obtain ⟨ms, kind, traffic⟩ := h.moves
  exact ⟨⟨ms, fun m mem => weaker m (kind m mem), traffic⟩, h.network⟩

end Since

namespace Aside

theorem of_same (traffic : w'.traffic = w.traffic) (server : w'.server = w.server)
    (network : w'.network = w.network) : Aside w w' := ⟨.of_same traffic network, server ▸ rfl⟩

theorem refl (w : World) : Aside w w := of_same rfl rfl rfl

theorem trans (h : Aside w w') (h' : Aside w' w'') : Aside w w'' :=
  ⟨h.toSince.trans h'.toSince, h'.server.trans h.server⟩

theorem wakeAll (h : Aside w w') (cs : List Caller) : Aside w (w'.wakeAll cs) := by
  induction cs generalizing w' with
  | nil => exact h
  | cons c cs ih =>
    apply ih
    cases c with
    | task n =>
      obtain ⟨ready, eq⟩ := w'.enqueue_eq (.task n)
      show Aside w (w'.enqueue (.task n))
      exact eq ▸ h.trans (of_same rfl rfl rfl)
    | serve n =>
      rw [World.wake]
      split
      · rename_i s present
        split
        · obtain ⟨ready, eq⟩ := enqueue_eq { w' with server := some (s.wake n) } .server
          rw [eq]
          refine h.trans ⟨.of_same rfl rfl, ?_⟩
          rw [present]
          exact congrArg some (s.unordered_wake n)
        · exact h
      · exact h

end Aside

theorem Worked.aside {own : Nat} (worked : Worked own Traffic.Move.Foreign w w') :
    Aside w w' := by
  induction worked with
  | refl => exact .refl w
  | @moved w' _ m foreign ih =>
    have made : Aside w' { w' with traffic := (w'.traffic.step m).traffic } :=
      ⟨⟨⟨[m], by simpa using foreign, rfl⟩, .refl _⟩, rfl⟩
    exact (ih.trans made).wakeAll _
  | wakeAll _ callers ih => exact ih.wakeAll callers
  | onNetwork _ grows ih => exact ih.trans ⟨⟨⟨[], by simp, rfl⟩, grows⟩, rfl⟩
  | reordered _ _ ih | setTask _ _ ih | dropTask _ ih | finish _ _ ih | finishWith _ _ _ ih
  | places _ _ _ _ _ ih | collected _ ih => exact ih.trans (.of_same rfl rfl rfl)

theorem resumeTask_aside (w : World) (n : Nat) : Aside w (w.resumeTask n) :=
  have task {m : Traffic.Move Caller} (own : m.caller? = some (.task n)) : m.Foreign :=
    Traffic.Move.foreign_of_task own
  (Worked.resumeTask (fun holding => Traffic.Move.foreign_of_none holding.caller?)
    (fun _ => task rfl) (task rfl) w).aside

theorem fileReturned_aside (w : World) : Aside w w.fileReturned :=
  have worked : Worked 0 Traffic.Move.Foreign w w.fileReturned :=
    .fileReturned (fun holding => Traffic.Move.foreign_of_none holding.caller?) .refl
  worked.aside

theorem perform_aside (w : World) (n : Nat) {c : Session.Command} (other : c.serves = false) :
    Aside w (Session.perform w n c).1 := by
  cases keys : c.turnsKeys with
  | false =>
    exact (perform_worked w n other keys (fun _ => Traffic.Move.foreign_of_none)
      fun _ => Traffic.Move.foreign_of_task).aside
  | true =>
    cases c with
    | insertKey key => exact .of_same rfl rfl rfl
    | removeKey publisher => exact .of_same rfl rfl rfl
    | setDefaultKey publisher =>
      show Aside w (Session.withArgument w (w.keys.setDefault publisher) _).1
      cases w.keys.setDefault publisher with
      | ok keys => exact .of_same rfl rfl rfl
      | error error => exact .refl w
    | _ => contradiction

end World

end NamedContent
