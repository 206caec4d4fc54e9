import Mathlib
import NamedContent.Proofs.Traffic.Undelivered

/-!
# Operations in progress

An operation that does not end at once goes on as a call of its caller. However often
the call is woken and looks in vain, it stays the call that it was, with the point of
time at which it ends, and nobody but its caller goes on with it or drops it.
-/

set_option autoImplicit false

namespace NamedContent

namespace Call

def fresh : Call → Call
  | put block deadline _ => put block deadline false
  | request id deadline _ => request id deadline .empty
  | drain closing started deadline _ => drain closing started deadline false

@[simp] theorem fresh_deadline (c : Call) : c.fresh.deadline = c.deadline := by
  cases c <;> rfl

@[simp] theorem fresh_heard (c : Call) (ns : List Notice) : (c.heard ns).fresh = c.fresh := by
  cases c with
  | put block deadline woken => rw [put_heard]; rfl
  | request id deadline slot =>
    obtain ⟨slot', same, -⟩ := request_heard id deadline slot ns
    rw [same]
    rfl
  | drain closing started deadline woken => rw [drain_heard]; rfl

end Call

namespace Traffic

variable {κ : Type} [DecidableEq κ] {t start : Traffic κ} {m first : Move κ} {f : Effect κ}
  {ms : List (Move κ)} {who : κ} {call : Call} {timeout began now : Nat}

/-- The move begins an operation, which is this call if it has to wait, and waits
this long at most. -/
inductive Begins (t : Traffic κ) : Move κ → κ → Nat → Call → Prop where
  | put {who : κ} {block : Block} (free : t.call? who = none) :
      Begins t (.put who block) who t.buffer.config.putTimeout
        (.put block (t.now + t.buffer.config.putTimeout) false)
  | request {who : κ} {interest : Interest} {timeout : Nat} (free : t.call? who = none) :
      Begins t (.request who interest timeout) who timeout
        (.request t.buffer.nextId (t.now + timeout) .empty)
  | drain {who : κ} {timeout : Nat} (free : t.call? who = none) :
      Begins t (.drain who timeout) who timeout (.drain false t.now (t.now + timeout) false)
  | close {who : κ} (free : t.call? who = none) (going : t.buffer.phase ≠ .closed)
      (mode : t.buffer.bestEffort = true) :
      Begins t (.close who) who t.buffer.config.drainTimeout
        (.drain true t.now (t.now + t.buffer.config.drainTimeout) false)

omit [DecidableEq κ] in
theorem mem_added {now : Nat} {c : κ × Call} (added : f.added = [c]) :
    c ∈ (f.traffic now).calls :=
  mem_effect_calls.mpr (.inr (added ▸ List.mem_singleton.mpr rfl))

theorem call?_of_kept (kept : f.kept = (t.withoutCall who).calls) (added : f.added = []) :
    (f.traffic now).call? who = none := by
  rw [call?_eq_none]
  exact free_after added (kept ▸ t.not_mem_withoutCall who)

theorem Outcome.call_on (outcome : t.Outcome m f) (sound : t.Sound) (listed : (who, call) ∈ t.calls)
    (busy : (f.traffic now).call? who ≠ none) :
    ∃ call', (who, call') ∈ (f.traffic now).calls ∧ call'.fresh = call.fresh := by
  have waits := sound.call?_eq_some.mpr listed
  have stays (kept : (who, call) ∈ f.kept) :
      ∃ call', (who, call') ∈ (f.traffic now).calls ∧ call'.fresh = call.fresh :=
    ⟨_, mem_effect_calls.mpr (.inl (mem_heard.mpr ⟨_, kept, rfl⟩)), call.fresh_heard _⟩
  obtain kept | rfl | rfl := outcome.kept_cases listed
  · exact stays kept
  · cases outcome with
    | idle => exact stays listed
    | blocked puts =>
      cases puts with
      | resumed waits' =>
        cases waits.symm.trans waits'
        exact ⟨_, mem_added rfl, rfl⟩
    | rested drains =>
      cases drains with
      | resumed waits' =>
        cases waits.symm.trans waits'
        exact ⟨_, mem_added rfl, rfl⟩
    | refused puts | filed puts | overfull puts =>
      cases puts with
      | resumed => exact absurd (call?_of_kept rfl rfl) busy
    | reported drains | ended drains =>
      cases drains with
      | resumed => exact absurd (call?_of_kept rfl rfl) busy
    | expired | fetched | released | gaveUp => exact absurd (call?_of_kept rfl rfl) busy
  · cases outcome with
    | idle => exact stays listed
    | refused puts | filed puts | overfull puts | blocked puts => cases puts
    | rested drains | reported drains | ended drains => cases drains
    | cancelledRequest | cancelled => exact absurd (call?_of_kept rfl rfl) busy

theorem Begins.waits (begins : t.Begins m who timeout call) (outcome : t.Outcome m f)
    (busy : (f.traffic now).call? who ≠ none) : (who, call) ∈ (f.traffic now).calls := by
  have free : t.call? who = none := by
    cases begins <;> assumption
  have leaves (kept : f.kept = t.calls) (added : f.added = []) :
      (who, call) ∈ (f.traffic now).calls :=
    absurd (call?_eq_none.mpr (free_after added (kept ▸ call?_eq_none.mp free))) busy
  cases begins with
  | put =>
    cases outcome with
    | idle => exact leaves rfl rfl
    | refused puts | filed puts | overfull puts =>
      cases puts with
      | begun => exact leaves rfl rfl
    | blocked puts =>
      cases puts with
      | begun => exact mem_added rfl
    | rested drains | reported drains | ended drains => cases drains
  | request =>
    cases outcome with
    | idle | denied | served | missed => exact leaves rfl rfl
    | parked => exact mem_added rfl
    | refused puts | filed puts | overfull puts | blocked puts => cases puts
    | rested drains | reported drains | ended drains => cases drains
  | drain =>
    cases outcome with
    | idle => exact leaves rfl rfl
    | refused puts | filed puts | overfull puts | blocked puts => cases puts
    | rested drains =>
      cases drains with
      | begun => exact mem_added rfl
    | reported drains =>
      cases drains with
      | begun => exact leaves rfl rfl
    | ended drains => cases drains
  | close =>
    cases outcome with
    | idle | closedAgain | closed | closedPersistent => exact leaves rfl rfl
    | closing => exact mem_added rfl
    | refused puts | filed puts | overfull puts | blocked puts => cases puts
    | rested drains | reported drains | ended drains => cases drains

theorem Outcome.call_from (outcome : t.Outcome m f) (listed : (who, call) ∈ (f.traffic now).calls) :
    (∃ old, (who, old) ∈ t.calls ∧ old.fresh = call.fresh) ∨
      ∃ timeout, t.Begins m who timeout call := by
  rcases mem_effect_calls.mp listed with kept | new
  · obtain ⟨old, waits, rfl⟩ := mem_heard.mp kept
    exact .inl ⟨old, outcome.call_cases waits, (old.fresh_heard _).symm⟩
  · cases outcome with
    | blocked puts =>
      cases List.mem_singleton.mp new
      cases puts with
      | begun free => exact .inr ⟨_, .put free⟩
      | resumed waits => exact .inl ⟨_, mem_of_call? waits, rfl⟩
    | parked free =>
      cases List.mem_singleton.mp new
      exact .inr ⟨_, .request free⟩
    | rested drains =>
      cases List.mem_singleton.mp new
      cases drains with
      | begun free => exact .inr ⟨_, .drain free⟩
      | resumed waits => exact .inl ⟨_, mem_of_call? waits, rfl⟩
    | closing free going mode =>
      cases List.mem_singleton.mp new
      exact .inr ⟨_, .close free going mode⟩
    | _ => contradiction

theorem Begins.fresh (begins : t.Begins m who timeout call) : call.fresh = call := by
  cases begins <;> rfl

theorem Begins.deadline (begins : t.Begins m who timeout call) :
    call.deadline = t.now + timeout := by
  cases begins <;> rfl

/-- After these moves the caller is still at the operation that this move began at this
point of time: it has had a call in progress ever since. -/
def InProgress (start : Traffic κ) (ms : List (Move κ)) (first : Move κ) (who : κ)
    (timeout began : Nat) (call : Call) : Prop :=
  ∃ before since, ms = before ++ first :: since ∧
    (start.run before).Begins first who timeout call ∧ began = (start.run before).now ∧
    ∀ mid after, since = mid ++ after → (start.run (before ++ first :: mid)).call? who ≠ none

theorem InProgress.deadline (going : start.InProgress ms first who timeout began call) :
    call.deadline = began + timeout := by
  obtain ⟨before, since, -, begins, rfl, -⟩ := going
  exact begins.deadline

theorem InProgress.listed {config : Buffer.Config}
    (going : (ofConfig config).InProgress ms first who timeout began call) :
    ∃ call', (who, call') ∈ ((ofConfig config).run ms).calls ∧ call'.fresh = call := by
  obtain ⟨before, since, rfl, begins, -, busy⟩ := going
  -- by what has happened since: the caller is busy after each part of that
  induction since using List.reverseRecOn with
  | nil =>
    have here := busy [] [] rfl
    obtain ⟨f, outcome, shows⟩ := ((ofConfig config).run before).step_explained first
    rw [run_snoc, shows.traffic] at here ⊢
    exact ⟨call, begins.waits outcome here, begins.fresh⟩
  | append_singleton mid m ih =>
    obtain ⟨old, listed, same⟩ := ih fun mid' after split =>
      busy mid' (after ++ [m]) (by rw [split, List.append_assoc])
    have here := busy (mid ++ [m]) [] (List.append_nil _).symm
    obtain ⟨f, outcome, shows⟩ :=
      ((ofConfig config).run (before ++ first :: mid)).step_explained m
    have split : before ++ first :: (mid ++ [m]) = (before ++ first :: mid) ++ [m] := by simp
    rw [split, run_snoc, shows.traffic] at here ⊢
    obtain ⟨call', now, still⟩ := outcome.call_on (run_sound config _) listed here
    exact ⟨call', now, still.trans same⟩

theorem InProgress.snoc (going : start.InProgress ms first who timeout began call)
    (busy : (start.run (ms ++ [m])).call? who ≠ none) :
    start.InProgress (ms ++ [m]) first who timeout began call := by
  obtain ⟨before, since, rfl, begins, began, ever⟩ := going
  refine ⟨before, since ++ [m], by simp, begins, began, fun mid after split => ?_⟩
  obtain rfl | ⟨after, last, rfl⟩ := after.eq_nil_or_concat
  · obtain rfl : mid = since ++ [m] := by simpa using split.symm
    simpa using busy
  · have split : since ++ [m] = (mid ++ after) ++ [last] := by simpa using split
    exact ever mid after (List.append_inj' split rfl).1

theorem Begins.inProgress (begins : (start.run ms).Begins m who timeout call)
    (busy : (start.run (ms ++ [m])).call? who ≠ none) :
    start.InProgress (ms ++ [m]) m who timeout (start.run ms).now call := by
  refine ⟨ms, [], rfl, begins, rfl, fun mid after split => ?_⟩
  obtain ⟨rfl, -⟩ := List.append_eq_nil_iff.mp split.symm
  exact busy

/-- Every call is an operation in progress that a move of the run has begun. -/
theorem inProgress_of_listed {config : Buffer.Config}
    (listed : (who, call) ∈ ((ofConfig config).run ms).calls) :
    ∃ first timeout began, (ofConfig config).InProgress ms first who timeout began call.fresh := by
  induction ms using List.reverseRecOn generalizing call with
  | nil => contradiction
  | append_singleton past m ih =>
    have busy : ((ofConfig config).run (past ++ [m])).call? who ≠ none := by
      rw [(run_sound config _).call?_eq_some.mpr listed]
      nofun
    obtain ⟨f, outcome, shows⟩ := ((ofConfig config).run past).step_explained m
    rw [run_snoc, shows.traffic] at listed
    obtain ⟨old, waited, same⟩ | ⟨timeout, begins⟩ := outcome.call_from listed
    · obtain ⟨first, timeout, began, going⟩ := ih waited
      exact ⟨first, timeout, began, same ▸ going.snoc busy⟩
    · rw [begins.fresh]
      exact ⟨m, timeout, _, begins.inProgress busy⟩

end Traffic

end NamedContent
