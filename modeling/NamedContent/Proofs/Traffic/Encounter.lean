import Mathlib
import NamedContent.Proofs.Traffic.Calls

/-!
# A put and a request do not miss each other

A request that waits and an entry that is available to it are never in the
buffer together. A request scans the buffer when it arrives, a block goes
through the matcher when it is filed, and both ways find the same pairs.
-/

set_option autoImplicit false

namespace NamedContent

namespace Buffer

theorem isAvailable_eq {b b' : Buffer} (mode : b'.bestEffort = b.bestEffort)
    (interest : Interest) (e : Entry) : b'.isAvailable interest e = b.isAvailable interest e := by
  rw [isAvailable, isAvailable, mode]

/-- No entry is available to a request that waits. -/
def Unmissed (b : Buffer) : Prop :=
  ∀ w ∈ b.pending, w.demand = .once → ∀ name e, (name, e) ∈ b.entries.toList →
    b.isAvailable w.interest e = false

theorem Unmissed.of_fewer {b b' : Buffer} (h : b.Unmissed) (mode : b'.bestEffort = b.bestEffort)
    (waiters : ∀ w ∈ b'.pending, w ∈ b.pending)
    (entries : ∀ x ∈ b'.entries.toList, x ∈ b.entries.toList) : b'.Unmissed := by
  intro w hw once name e listed
  rw [isAvailable_eq mode]
  exact h w (waiters w hw) once name e (entries _ listed)

theorem enroll_unmissed {b : Buffer} (h : b.Unmissed) {interest : Interest}
    (nothing : ∀ name e, (name, e) ∈ b.entries.toList → b.isAvailable interest e = false) :
    (b.enroll interest .once).Unmissed := by
  intro w hw once name e listed
  rcases List.mem_append.mp hw with old | new
  · exact h w old once name e listed
  · obtain rfl := List.mem_singleton.mp new
    exact nothing name e listed

theorem file_unmissed {b b' : Buffer} {block : Block} {ns : List Notice} (h : b.Unmissed)
    (filed : b.Filed block b' ns) : b'.Unmissed := by
  intro w hw once name e listed
  have mode : b'.bestEffort = b.bestEffort := by
    rw [Buffer.bestEffort, Buffer.bestEffort, filed.config]
  have old := ((filed.once w once).mp hw).1
  rw [isAvailable_eq mode]
  rw [filed.entries] at listed
  rcases Table.mem_insert.mp listed with new | ⟨other, -⟩
  · obtain ⟨rfl, rfl⟩ := Prod.mk.inj new
    by_cases accepts : w.interest.accepts block.name = true
    · -- it still waits only because another request has taken the block
      obtain ⟨best, read⟩ := filed.late w hw once accepts
      simp [isAvailable, newEntry, best, read]
    · simp [isAvailable, newEntry, accepts]
  · exact h w old once name e other

theorem serve_unmissed {b : Buffer} (h : b.Unmissed) {interest : Interest} {e : Entry}
    (listed : (e.block.name, e) ∈ b.entries.toList) (available : b.isAvailable interest e = true) :
    { b with entries := b.entries.insert e.block.name e.afterRead }.Unmissed := by
  intro w hw once name e' listed'
  show b.isAvailable w.interest e' = false
  rcases Table.mem_insert.mp listed' with new | ⟨other, -⟩
  · obtain ⟨rfl, rfl⟩ := Prod.mk.inj new
    have before := h w hw once _ e listed
    cases best : b.bestEffort with
    | true =>
      have unread := unread_of_available best available
      simp [isAvailable, best, Entry.afterRead, unread, UInt32.size]
    | false => simpa [isAvailable, best, Entry.afterRead] using before
  · exact h w hw once name e' other

theorem Change.unmissed {b b' : Buffer} {ns : List Notice} (change : b.Change b' ns)
    (consistent : b.Consistent) (h : b.Unmissed) : b'.Unmissed := by
  have same := change.bestEffort consistent
  cases change with
  | stay => exact h
  | sweep => exact h.of_fewer rfl (fun _ hw => hw) fun x hx => (mem_sweep.mp hx).1
  | file _ _ _ filed =>
    apply file_unmissed _ (file_filed (makeRoom_consistent consistent _) filed)
    apply h.of_fewer (makeRoom_bestEffort b _)
    · intro w hw
      rwa [makeRoom_pending] at hw
    · exact fun x hx => mem_of_makeRoom hx
  | serve _ listed available => exact serve_unmissed h listed available
  | park _ nothing => exact enroll_unmissed h ((take?_eq_none consistent).mp nothing)
  | miss _ nothing =>
    have enrolled := enroll_unmissed h ((take?_eq_none consistent).mp nothing)
    apply enrolled.of_fewer same
    · exact fun w hw => (mem_forget_pending.mp hw).1
    · intro x hx
      rwa [forget_entries] at hx
  | forget id =>
    apply h.of_fewer same
    · exact fun w hw => (mem_forget_pending.mp hw).1
    · intro x hx
      rwa [forget_entries] at hx
  | drain => exact h
  | shut => exact h.of_fewer same (by simp [Buffer.shut]) (by simp [Buffer.shut, Table.empty])
  | close => exact h.of_fewer same (by simp [Buffer.shut]) (by simp [Buffer.shut, Table.empty])
  | resize => exact h
  | scope => exact h
  | clear => exact h.of_fewer same (fun _ hw => hw) (by simp [Buffer.clear, Table.empty])
  | remove name => exact h.of_fewer same (fun _ hw => hw) fun x hx => List.mem_of_mem_filter hx
  | subscribe opened =>
    obtain ⟨-, rfl⟩ := subscribe?_eq_some opened
    intro w hw once name e listed
    rcases List.mem_append.mp hw with old | new
    · exact h w old once name e listed
    · obtain rfl := List.mem_singleton.mp new
      contradiction
  | read => exact h
  | dropFeed id =>
    apply h.of_fewer same
    · exact fun w hw => (mem_forget_pending.mp hw).1
    · intro x hx
      exact (forget_entries b id) ▸ hx

end Buffer

namespace Traffic

variable {κ : Type} [DecidableEq κ]

theorem run_unmissed (config : Buffer.Config) (ms : List (Move κ)) :
    ((ofConfig config).run ms).buffer.Unmissed := by
  have start : (ofConfig config : Traffic κ).buffer.Unmissed := by
    intro w hw
    contradiction
  exact (run_preserves (P := fun t => t.buffer.Unmissed)
    (fun t m f sound h outcome => (outcome.change sound.buffer).unmissed sound.buffer h)
    (ofConfig_sound config) start ms).2

/-- After any run no request waits for an entry that it could have: any entry
that it accepts, and in best-effort mode one that no reader has had. -/
theorem run_no_missed_pair (config : Buffer.Config) (ms : List (Move κ)) :
    let b := ((ofConfig config).run ms).buffer
    ¬∃ w ∈ b.pending, w.demand = .once ∧ ∃ e ∈ b.entries.values,
      w.interest.accepts e.block.name = true ∧
        (config.mode = .bestEffort → e.deliveries = 0) := by
  intro b missed
  obtain ⟨w, hw, once, e, stored, accepts, unread⟩ := missed
  obtain ⟨⟨name, e⟩, listed, rfl⟩ := List.mem_map.mp stored
  have unavailable : b.isAvailable w.interest e = false :=
    run_unmissed config ms w hw once name e listed
  rw [Buffer.isAvailable, accepts, Bool.true_and, Bool.not_eq_false', Bool.and_eq_true]
    at unavailable
  obtain ⟨best, read⟩ := unavailable
  have mode : config.mode = .bestEffort := by
    rw [Buffer.bestEffort, run_config] at best
    simpa using best
  exact absurd (unread mode) (by simpa using read)

end Traffic

end NamedContent
