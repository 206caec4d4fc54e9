import Mathlib
import NamedContent.Proofs.KeyRing
import NamedContent.Proofs.World.GivingUp

/-!
# The key ring of a world

Only the commands on keys change the key ring. So it is one that has come
about from the first key by such changes, whatever else has happened.
-/

set_option autoImplicit false

namespace NamedContent

namespace World

variable {w : World} {n : Nat}

theorem Worked.keys {own : Nat} {P : Traffic.Move Caller → Prop} {w' : World}
    (worked : Worked own P w w') : w'.keys = w.keys := by
  induction worked with
  | moved _ _ ih => exact (moved_keys _ _).trans ih
  | @wakeAll w' _ callers ih =>
    obtain ⟨_, _, eq⟩ := w'.wakeAll_eq callers
    rw [eq]
    exact ih
  | refl => rfl
  | reordered _ _ ih | setTask _ _ ih | dropTask _ ih | finish _ _ ih | finishWith _ _ _ ih
  | onNetwork _ _ ih | places _ _ _ _ _ ih | collected _ ih => exact ih

theorem step_keys (reachable : w.keys.Reachable) (n : Nat) (e : Event) :
    (w.step n e).keys.Reachable := by
  cases keys : e.turnsKeys with
  | false =>
    have worked : Worked (e.own n) (fun _ => True) w (w.step n e) :=
      step_worked keys (fun _ => trivial) (e.makes_any n)
    exact worked.keys ▸ reachable
  | true =>
    cases e with
    | insertKey key => exact reachable.insert key
    | removeKey publisher => exact reachable.remove publisher
    | setDefaultKey publisher =>
      show (Session.withArgument w (w.keys.setDefault publisher) _).1.keys.Reachable
      cases done : w.keys.setDefault publisher with
      | ok keys => exact reachable.setDefault done
      | error error => exact reachable
    | _ => contradiction

theorem act_keys (reachable : w.keys.Reachable) (n : Nat) (a : Act) :
    (w.act n a).keys.Reachable := by
  cases a with
  | event e => exact step_keys reachable n e
  | giveUp task =>
    have worked : Worked task (fun _ => True) w (w.giveUp task) :=
      .giveUp (fun _ => trivial) trivial w
    show (w.giveUp task).keys.Reachable
    rwa [worked.keys]

theorem lived_keys (config : Buffer.Config) (key : Ed25519.SigningKey) (acts : List Act) :
    (lived config key acts).keys.Reachable := by
  induction acts using List.reverseRecOn with
  | nil => exact .ofKey key
  | append_singleton acts a ih =>
    rw [lived_append]
    exact act_keys ih acts.length a

end World

end NamedContent
