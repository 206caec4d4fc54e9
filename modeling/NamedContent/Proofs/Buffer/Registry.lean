import Mathlib
import NamedContent.Proofs.Buffer.Change
import NamedContent.Proofs.Matcher.Registrations

/-!
# The registry of waiters

The matcher holds the interests of the waiters, each once, and nothing else. A
closed buffer has neither.
-/

set_option autoImplicit false

namespace NamedContent

namespace Buffer

variable {b b' : Buffer} {ns : List Notice}

theorem forget_tidy (tidy : b.matcher.Tidy) (id : Nat) : (b.forget id).matcher.Tidy := by
  unfold forget
  split
  · exact tidy
  · exact Matcher.unregister_tidy _ _ tidy

/-- What every round of an offer preserves holds of the whole offer. -/
theorem offer_preserves {P : Offer → Prop} {block : Block} (h : b.Consistent)
    (round : ∀ o id, b.Offering block o → P o → P (o.toId block id))
    (start : P ⟨b, 0, false, []⟩) : P (b.offer block) := by
  have fold (ids : List Nat) : ∀ o, b.Offering block o → P o →
      P (ids.foldl (Offer.toId block) o) := by
    induction ids with
    | nil => exact fun _ _ kept => kept
    | cons id ids ih =>
      exact fun o offering kept => ih _ (toId_offering offering id) (round o id offering kept)
  exact fold _ _ (offering_start h block) start

theorem offer_tidy {block : Block} (h : b.Consistent) (tidy : b.matcher.Tidy) :
    (b.offer block).buffer.matcher.Tidy := by
  refine offer_preserves (P := fun o => o.buffer.matcher.Tidy) h ?_ tidy
  intro o id offering tidy
  obtain ⟨same, -⟩ | ⟨w, -, -, -, -, -, served⟩ | ⟨w, -, -, limit, received, -, copied⟩ :=
    toId_cases offering.consistent block id
  · rwa [same]
  · rw [served]
    exact forget_tidy tidy w.id
  · rw [copied]
    rcases o.buffer.copyTo_cases block w limit received with eq | eq
    · exact eq ▸ tidy
    · exact eq ▸ forget_tidy (b := o.buffer.copied block w limit received) tidy w.id

theorem Change.tidy (change : b.Change b' ns) (h : b.Consistent) (tidy : b.matcher.Tidy) :
    b'.matcher.Tidy := by
  cases change with
  | @file block _ _ _ _ _ filed =>
    obtain ⟨entries, room⟩ := b.makeRoom_eq block.name
    have consistent := makeRoom_consistent h block.name
    rw [file_eq consistent] at filed
    obtain ⟨rfl, -⟩ := Prod.mk.inj filed
    refine offer_tidy (numbered_consistent consistent _) ?_
    rw [room]
    exact tidy
  | park => exact Matcher.register_tidy _ _ tidy
  | miss => exact forget_tidy (Matcher.register_tidy _ _ tidy) _
  | forget id => exact forget_tidy tidy id
  | shut => exact Matcher.empty_tidy
  | close => exact Matcher.empty_tidy
  | subscribe opened =>
    obtain ⟨-, rfl⟩ := subscribe?_eq_some opened
    exact Matcher.register_tidy _ _ tidy
  | dropFeed id => exact forget_tidy tidy id
  | _ => exact tidy

theorem registrations_perm (h : b.Consistent) (tidy : b.matcher.Tidy) :
    b.matcher.registrations.Perm (b.pending.map fun w => (w.interest.name, w.id)) := by
  have table : (b.pending.map fun w => (w.interest.name, w.id)).Nodup := by
    have ids := h.distinct
    exact List.Nodup.of_map Prod.snd (by rwa [List.map_map])
  refine (List.perm_ext_iff_of_nodup (Matcher.registrations_nodup h.sorted tidy) table).mpr ?_
  rintro ⟨pattern, id⟩
  rw [Matcher.mem_registrations h.sorted, ← Matcher.holds_iff, h.held, List.mem_map]
  constructor
  · rintro ⟨w, hw, rfl, rfl⟩
    exact ⟨w, hw, rfl⟩
  · rintro ⟨w, hw, eq⟩
    obtain ⟨rfl, rfl⟩ := Prod.mk.inj eq
    exact ⟨w, hw, rfl, rfl⟩

theorem matcher_eq_empty (h : b.Consistent) (tidy : b.matcher.Tidy) (nobody : b.pending = []) :
    b.matcher = .empty := by
  apply Matcher.eq_empty_of_registrations tidy
  have perm := registrations_perm h tidy
  rw [nobody] at perm
  exact perm.eq_nil

theorem Change.closed (change : b.Change b' ns) (closed : b.phase = .closed)
    (nobody : b.pending = []) : b'.phase = .closed ∧ b'.pending = [] := by
  have left (id : Nat) : (b.forget id).phase = .closed ∧ (b.forget id).pending = [] :=
    ⟨(forget_sameStore b id).phase.trans closed, by rw [forget_pending, nobody, List.filter_nil]⟩
  cases change with
  | file phase =>
    rw [closed] at phase
    contradiction
  | serve phase | park phase | miss phase | drain phase | close phase =>
    exact absurd closed phase
  | forget id => exact left id
  | shut => exact ⟨rfl, rfl⟩
  | subscribe opened => exact absurd closed (subscribe?_eq_some opened).1
  | dropFeed id => exact left id
  | _ => exact ⟨closed, nobody⟩

theorem Change.nobody (change : b.Change b' ns) (h : b.Consistent)
    (nobody : b.phase = .closed → b.pending = []) (closed : b'.phase = .closed) :
    b'.pending = [] := by
  by_cases before : b.phase = .closed
  · exact (change.closed before (nobody before)).2
  · have open_still (same : b'.phase = b.phase) : b'.pending = [] :=
      absurd (same.symm.trans closed) before
    cases change with
    | @file block _ _ _ _ _ filed =>
      obtain ⟨entries, room⟩ := b.makeRoom_eq block.name
      refine open_still ?_
      rw [(file_filed (makeRoom_consistent h _) filed).phase, room]
    | miss => exact open_still (forget_sameStore _ _).phase
    | forget id => exact open_still (forget_sameStore b id).phase
    | drain => contradiction
    | shut => rfl
    | close => rfl
    | subscribe opened =>
      obtain ⟨-, rfl⟩ := subscribe?_eq_some opened
      exact open_still rfl
    | dropFeed id => exact open_still (forget_sameStore b id).phase
    | _ => exact open_still rfl

end Buffer

end NamedContent
