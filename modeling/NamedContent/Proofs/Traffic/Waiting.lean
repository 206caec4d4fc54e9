import Mathlib
import NamedContent.Proofs.Traffic.Delivery
import NamedContent.Proofs.Traffic.Registry
import NamedContent.Proofs.Traffic.Room

/-!
# Nobody is left behind in the table of waiters

When no call can go on, the table is the list of the requests in progress and
of the open filters that still expect blocks, and the matcher holds just their
interests. So nothing stays behind when requests end in whatever way, filters
are dropped or run out, or the buffer is closed.
-/

set_option autoImplicit false

namespace NamedContent

def Waiter.wait (w : Waiter) : Nat × Option Interest × Demand := (w.id, some w.interest, w.demand)

namespace Traffic

variable {κ : Type} [DecidableEq κ] {t : Traffic κ} {m : Move κ} {f : Effect κ}
  {subs : List Subscription}

theorem run_tidy (config : Buffer.Config) (ms : List (Move κ)) :
    ((ofConfig config : Traffic κ).run ms).buffer.matcher.Tidy :=
  (run_preserves (P := fun t => t.buffer.matcher.Tidy)
    (fun _ _ _ sound tidy outcome => (outcome.change sound.buffer).tidy sound.buffer tidy)
    (ofConfig_sound config) Matcher.empty_tidy ms).2

theorem run_nobody (config : Buffer.Config) (ms : List (Move κ)) :
    ((ofConfig config : Traffic κ).run ms).buffer.phase = .closed →
      ((ofConfig config : Traffic κ).run ms).buffer.pending = [] :=
  (run_preserves (P := fun t => t.buffer.phase = .closed → t.buffer.pending = [])
    (fun _ _ _ sound nobody outcome => (outcome.change sound.buffer).nobody sound.buffer nobody)
    (ofConfig_sound config) (fun _ => rfl) ms).2

theorem run_closed (sound : t.Sound) (closed : t.buffer.phase = .closed)
    (nobody : t.buffer.pending = []) (ms : List (Move κ)) :
    (t.run ms).buffer.phase = .closed ∧ (t.run ms).buffer.pending = [] :=
  (run_preserves (P := fun t => t.buffer.phase = .closed ∧ t.buffer.pending = [])
    (fun _ _ _ sound before outcome =>
      (outcome.change sound.buffer).closed before.1 before.2) sound ⟨closed, nobody⟩ ms).2

theorem Outcome.closes (outcome : t.Outcome m f) (closing : t.Closing m) (ends : f.answer ≠ none) :
    f.buffer.phase = .closed := by
  obtain ⟨who, rfl | ⟨rfl, started, deadline, woken, waits⟩⟩ := closing
  · cases outcome with
    | idle | closing => contradiction
    | closedAgain free phase => exact phase
    | closed | closedPersistent => rfl
    | refused puts | filed puts | overfull puts | blocked puts => cases puts
    | rested drains | reported drains | ended drains => cases drains
  · cases outcome with
    | idle | rested => contradiction
    | refused puts | filed puts | overfull puts | blocked puts =>
      cases puts with
      | resumed waits' => cases waits.symm.trans waits'
    | expired waits' | fetched waits' | released waits' | gaveUp waits' =>
      cases waits.symm.trans waits'
    | reported drains =>
      cases drains with
      | resumed waits' => cases waits.symm.trans waits'
    | ended => rfl

def requestWaits (t : Traffic κ) (asked : κ → Option Interest) :
    List (Nat × Option Interest × Demand) :=
  t.calls.filterMap fun c =>
    match c.2 with
    | .request id _ _ => some (id, asked c.1, .once)
    | _ => none

/-- The waits of the open filters that have not received the block that exhausts them. -/
def filterWaits (t : Traffic κ) (subs : List Subscription) :
    List (Nat × Option Interest × Demand) :=
  (subs.filter fun x => !t.buffer.exhausted x).map fun x => (t.buffer.registration x).wait

omit [DecidableEq κ] in
theorem mem_requestWaits {asked : κ → Option Interest} {wait : Nat × Option Interest × Demand} :
    wait ∈ t.requestWaits asked ↔ ∃ who id deadline slot,
      (who, .request id deadline slot) ∈ t.calls ∧ wait = (id, asked who, .once) := by
  rw [requestWaits, List.mem_filterMap]
  constructor
  · rintro ⟨⟨who, call⟩, listed, eq⟩
    cases call with
    | request id deadline slot => exact ⟨who, id, deadline, slot, listed, (Option.some.inj eq).symm⟩
    | put | drain => contradiction
  · rintro ⟨who, id, deadline, slot, listed, rfl⟩
    exact ⟨_, listed, rfl⟩

omit [DecidableEq κ] in
theorem mem_filterWaits {wait : Nat × Option Interest × Demand} :
    wait ∈ t.filterWaits subs ↔ ∃ x ∈ subs, t.buffer.exhausted x = false ∧
      wait = (t.buffer.registration x).wait := by
  rw [filterWaits, List.mem_map]
  constructor
  · rintro ⟨x, listed, rfl⟩
    obtain ⟨hx, going⟩ := List.mem_filter.mp listed
    exact ⟨x, hx, by simpa using going, rfl⟩
  · rintro ⟨x, hx, going, rfl⟩
    exact ⟨x, List.mem_filter.mpr ⟨hx, by simpa using going⟩, rfl⟩

omit [DecidableEq κ] in
theorem requestWaits_nodup (sound : t.Sound) (asked : κ → Option Interest) :
    (t.requestWaits asked).Nodup := by
  have calls : t.calls.Nodup := .of_map Prod.fst sound.callers
  -- two calls with one wait have one id, so they are one caller's
  rw [requestWaits, List.Nodup, List.pairwise_filterMap]
  refine calls.imp_of_mem ?_
  rintro ⟨who, call⟩ ⟨who', call'⟩ listed listed' apart wait here _ there rfl
  cases call with
  | put | drain => contradiction
  | request id deadline slot =>
    cases call' with
    | put | drain => contradiction
    | request id' deadline' slot' =>
      obtain rfl : id' = id := (Prod.mk.inj (Option.some.inj (there.trans here.symm))).1
      obtain rfl := sound.alone _ _ _ _ _ _ _ listed listed'
      exact apart (congrArg _ (sound.call_unique listed listed'))

omit [DecidableEq κ] in
theorem filterWaits_nodup (h : t.buffer.Attended subs) : (t.filterWaits subs).Nodup := by
  have ids : ((subs.filter fun x => !t.buffer.exhausted x).map (·.id)).Nodup :=
    h.distinct.sublist (List.filter_sublist.map _)
  refine .of_map Prod.fst ?_
  rw [filterWaits, List.map_map]
  exact ids

theorem Quiet.unanswered (quiet : t.Quiet) (sound : t.Sound) {who : κ} {id deadline : Nat}
    {slot : Slot} (listed : (who, .request id deadline slot) ∈ t.calls) : slot = .empty := by
  have answer : (t.resume who).answer = none := congrArg Turn.answer (quiet who)
  rw [resume, sound.call?_eq_some.mpr listed] at answer
  cases slot with
  | empty => rfl
  | handed | released => contradiction

/-- When nobody can go on, the table lists the requests in progress and the
filters that still expect blocks. -/
theorem InStep.waits_perm (h : t.InStep subs) {a : Account κ} (sound : t.Sound)
    (balanced : t.Balanced a) (quiet : t.Quiet) (phase : t.buffer.phase ≠ .closed) :
    (t.buffer.pending.map Waiter.wait).Perm (t.requestWaits a.asked ++ t.filterWaits subs) := by
  have table : (t.buffer.pending.map Waiter.wait).Nodup := by
    refine .of_map Prod.fst ?_
    rw [List.map_map]
    exact sound.buffer.distinct
  have callers : (t.requestWaits a.asked ++ t.filterWaits subs).Nodup := by
    refine (requestWaits_nodup sound _).append (filterWaits_nodup h.attended) ?_
    intro wait request filter
    obtain ⟨_, _, _, _, -, rfl⟩ := mem_requestWaits.mp request
    obtain ⟨_, -, -, eq⟩ := mem_filterWaits.mp filter
    cases congrArg (fun wait => wait.2.2) eq
  refine (List.perm_ext_iff_of_nodup table callers).mpr fun wait => ?_
  rw [List.mem_map, List.mem_append, mem_requestWaits, mem_filterWaits]
  constructor
  · rintro ⟨w, hw, rfl⟩
    by_cases once : w.demand = .once
    · obtain ⟨who, deadline, listed⟩ := h.waited w hw once
      refine .inl ⟨who, w.id, deadline, .empty, listed, ?_⟩
      rw [Waiter.wait, once, balanced.waiting who w.id deadline listed w hw once rfl]
    · obtain ⟨x, hx, going, rfl⟩ := (h.attended.standing phase w once).mp hw
      exact .inr ⟨x, hx, going, rfl⟩
  · rintro (⟨who, id, deadline, slot, listed, rfl⟩ | ⟨x, hx, going, rfl⟩)
    · obtain rfl := quiet.unanswered sound listed
      obtain ⟨w, hw, rfl, once⟩ := h.waits who id deadline listed
      refine ⟨w, hw, ?_⟩
      rw [Waiter.wait, once, balanced.waiting who w.id deadline listed w hw once rfl]
    · refine ⟨t.buffer.registration x, ?_, rfl⟩
      have stands : (t.buffer.registration x).demand ≠ .once := by simp [Buffer.registration]
      exact (h.attended.standing phase _ stands).mpr ⟨x, hx, going, rfl⟩

end Traffic

end NamedContent
