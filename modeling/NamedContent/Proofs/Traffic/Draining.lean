import Mathlib
import NamedContent.Proofs.Traffic.Progress

/-!
# Waits for readers

A wait for readers, by itself or as a part of closing, ends with a report. Whatever
takes away the last block that nobody has had wakes those who wait, so nobody waits
for readers of nothing, and a wait that still finds such blocks at its end has had
all its time.
-/

set_option autoImplicit false

namespace NamedContent

namespace Buffer

variable {b b' : Buffer} {ns : List Notice}

theorem unclaimed_ne_zero :
    b.unclaimed ≠ 0 ↔ ∃ name e, (name, e) ∈ b.entries.toList ∧ e.deliveries = 0 := by
  rw [unclaimed, Ne, List.length_eq_zero_iff, List.filter_eq_nil_iff]
  simp only [Table.values, List.mem_map, decide_eq_true_eq, not_forall, not_not, exists_prop]
  constructor
  · rintro ⟨_, ⟨⟨name, e⟩, listed, rfl⟩, unread⟩
    exact ⟨name, e, listed, unread⟩
  · rintro ⟨name, e, listed, unread⟩
    exact ⟨e, ⟨(name, e), listed, rfl⟩, unread⟩

theorem Change.unclaimed_ne_zero (change : b.Change b' ns) (h : b.Consistent)
    (untold : .claimed ∉ ns) (some : b.unclaimed ≠ 0) : b'.unclaimed ≠ 0 := by
  have removal : Notice.claimed ∈ removalNotices := by simp [removalNotices]
  have shutting : Notice.claimed ∈ b.shutNotices := List.mem_append_right _ removal
  have same (entries : b'.entries = b.entries) : b'.unclaimed ≠ 0 := by
    rwa [unclaimed, entries]
  cases change with
  | sweep =>
    obtain ⟨name, e, listed, unread⟩ := unclaimed_ne_zero.mp some
    exact unclaimed_ne_zero.mpr ⟨name, e, mem_sweep.mpr ⟨listed, unread⟩, unread⟩
  | @file block _ _ phase admitted room filed =>
    have consistent := makeRoom_consistent h block.name
    have entries := (file_filed consistent filed).entries
    rw [file_eq consistent] at filed
    obtain ⟨-, rfl⟩ := Prod.mk.inj filed
    have nobody : (b.makeRoom block.name).recipients block = 0 := by
      by_contra taken
      rw [filingNotices, if_neg taken] at untold
      exact untold (List.mem_append_right _ (List.mem_singleton.mpr rfl))
    have new : (block.name, (b.makeRoom block.name).newEntry block) ∈ b'.entries.toList := by
      rw [entries]
      exact Table.mem_insert.mpr (.inl rfl)
    exact unclaimed_ne_zero.mpr ⟨_, _, new, nobody⟩
  | serve =>
    refine absurd ?_ untold
    rw [deliveryNotices]
    split <;> simp
  | shut => exact absurd shutting untold
  | close => exact absurd (List.mem_cons_of_mem _ shutting) untold
  | clear | remove => exact absurd removal untold
  | miss => exact same (forget_sameStore _ _).entries
  | forget id => exact same (b.forget_sameStore id).entries
  | dropFeed id => exact same (b.forget_sameStore id).entries
  | subscribe opened =>
    obtain ⟨-, rfl⟩ := subscribe?_eq_some opened
    exact same rfl
  | stay | park | drain | resize | scope | read => exact same rfl

end Buffer

namespace Traffic

variable {κ : Type} [DecidableEq κ] {t start : Traffic κ} {m : Move κ} {f : Effect κ}
  {ms : List (Move κ)} {who : κ} {closing woken : Bool}
  {started deadline timeout began now : Nat}

/-- Whoever waits for readers and has not been woken would find something unclaimed. -/
def Attentive (t : Traffic κ) : Prop :=
  ∀ who closing started deadline, (who, .drain closing started deadline false) ∈ t.calls →
    t.buffer.unclaimed ≠ 0

theorem Outcome.attentive (outcome : t.Outcome m f) (sound : t.Sound) (h : t.Attentive) :
    (f.traffic now).Attentive := by
  intro who closing started deadline found
  rcases mem_effect_calls.mp found with kept | new
  · obtain ⟨before, listed, unwoken⟩ := drain_of_heard kept
    obtain ⟨rfl, untold⟩ : before = false ∧ .claimed ∉ f.notices := by simpa using unwoken.symm
    have some := h _ _ _ _ (outcome.call_cases listed)
    exact (outcome.change sound.buffer).unclaimed_ne_zero sound.buffer untold some
  · cases outcome with
    | rested _ goes_on => exact fun none => goes_on (.inl none)
    | closing _ _ _ goes_on => exact fun none => goes_on (.inl none)
    | blocked | parked => cases List.mem_singleton.mp new
    | _ => contradiction

theorem run_attentive (config : Buffer.Config) (ms : List (Move κ)) :
    ((ofConfig config).run ms).Attentive :=
  (run_preserves (fun _ _ _ sound h outcome => outcome.attentive sound h) (ofConfig_sound config)
    (by intro _ _ _ _ found; contradiction) ms).2

inductive BeginsWait (t : Traffic κ) : Move κ → κ → Bool → Nat → Prop where
  | drain {who : κ} {timeout : Nat} (free : t.call? who = none) :
      BeginsWait t (.drain who timeout) who false timeout
  | close {who : κ} (free : t.call? who = none) (going : t.buffer.phase ≠ .closed)
      (mode : t.buffer.bestEffort = true) :
      BeginsWait t (.close who) who true t.buffer.config.drainTimeout

/-- After these moves the caller still waits for readers, in a wait that began at this
point of time and for this long: it has had a call in progress ever since. -/
def Waiting (start : Traffic κ) (ms : List (Move κ)) (who : κ) (closing : Bool)
    (timeout began : Nat) : Prop :=
  ∃ before first since, ms = before ++ first :: since ∧
    (start.run before).BeginsWait first who closing timeout ∧ began = (start.run before).now ∧
    ∀ mid after, since = mid ++ after → (start.run (before ++ first :: mid)).call? who ≠ none

/-- The move ends a wait for readers with this answer, at once or after some time. -/
def EndsWait (start : Traffic κ) (ms : List (Move κ)) (m : Move κ) (closing : Bool)
    (timeout began : Nat) (a : Except PublishError Answer) : Prop :=
  ((start.run ms).step m).answer = some a ∧ ∃ who,
    (start.run ms).BeginsWait m who closing timeout ∧ began = (start.run ms).now ∨
      m = .resume who ∧ start.Waiting ms who closing timeout began

theorem beginsWait_iff : t.BeginsWait m who closing timeout ↔
    t.Begins m who timeout (.drain closing t.now (t.now + timeout) false) := by
  constructor
  · intro begins
    cases begins with
    | drain free => exact .drain free
    | close free going mode => exact .close free going mode
  · intro begins
    cases begins with
    | drain free => exact .drain free
    | close free going mode => exact .close free going mode

theorem waiting_iff : start.Waiting ms who closing timeout began ↔ ∃ first,
    start.InProgress ms first who timeout began
      (.drain closing began (began + timeout) false) := by
  constructor
  · rintro ⟨before, first, since, rfl, begins, rfl, busy⟩
    exact ⟨first, before, since, rfl, beginsWait_iff.mp begins, rfl, busy⟩
  · rintro ⟨first, before, since, rfl, begins, rfl, busy⟩
    exact ⟨before, first, since, rfl, beginsWait_iff.mpr begins, rfl, busy⟩

theorem Waiting.listed {config : Buffer.Config}
    (waiting : (ofConfig config).Waiting ms who closing timeout began) :
    ∃ woken, (who, .drain closing began (began + timeout) woken) ∈
      ((ofConfig config).run ms).calls := by
  obtain ⟨first, going⟩ := waiting_iff.mp waiting
  obtain ⟨call, listed, same⟩ := going.listed
  cases call with
  | drain closing' started deadline woken =>
    cases same
    exact ⟨woken, listed⟩
  | put | request => cases same

theorem waiting_of_listed {config : Buffer.Config}
    (listed : (who, .drain closing started deadline woken) ∈ ((ofConfig config).run ms).calls) :
    ∃ timeout, deadline = started + timeout ∧
      (ofConfig config).Waiting ms who closing timeout started := by
  obtain ⟨first, timeout, began, going⟩ := inProgress_of_listed listed
  have begun := going
  obtain ⟨before, since, -, begins, rfl, -⟩ := begun
  generalize same : (Call.drain closing started deadline woken).fresh = call at going begins
  cases begins with
  | put | request => cases same
  | drain | close =>
    cases same
    exact ⟨_, rfl, waiting_iff.mpr ⟨_, going⟩⟩

theorem resume_drain_goes_on (waits : t.call? who = some (.drain closing started deadline woken))
    (due : woken = true ∨ deadline ≤ t.now) (ends : t.buffer.unclaimed = 0 ∨ deadline ≤ t.now) :
    t.resume who ≠ t.idle := by
  intro same
  have answer := congrArg Turn.answer same
  rw [resume, waits] at answer
  simp only [if_pos due, attemptDrain] at answer
  rw [if_pos (show (t.withoutCall who).buffer.unclaimed = 0 ∨ deadline ≤ (t.withoutCall who).now
    from ends)] at answer
  cases closing with
  | false => cases answer
  | true => cases answer

theorem EndsWait.answer {a : Except PublishError Answer} {config : Buffer.Config}
    (ends : (ofConfig config).EndsWait ms m closing timeout began a) :
    let t := (ofConfig config).run ms
    a = (if closing then t.closeAnswer (t.report began) else .ok (.report (t.report began))) ∧
      (t.buffer.unclaimed = 0 ∨ began + timeout ≤ t.now) := by
  intro t
  obtain ⟨answered, how⟩ := ends
  obtain ⟨f, outcome, shows⟩ := t.step_explained m
  have answer : f.answer = some a := shows.answer.symm.trans answered
  obtain ⟨who, ⟨begins, rfl⟩ | ⟨rfl, waiting⟩⟩ := how
  · cases begins with
    | drain free =>
      cases outcome with
      | idle | rested => contradiction
      | refused puts | filed puts | overfull puts | blocked puts => cases puts
      | reported drains due =>
        cases drains with
        | begun => exact ⟨(Option.some.inj answer).symm, due⟩
      | ended drains => cases drains
    | close free going mode =>
      cases outcome with
      | idle | closing => contradiction
      | refused puts | filed puts | overfull puts | blocked puts => cases puts
      | rested drains | reported drains | ended drains => cases drains
      | closedAgain _ closed => exact absurd closed going
      | closed _ _ _ due => exact ⟨(Option.some.inj answer).symm, due⟩
      | closedPersistent _ _ other => cases mode.symm.trans other
  · obtain ⟨woken, listed⟩ := waiting.listed
    have waits := (run_sound config ms).call?_eq_some.mpr listed
    cases outcome with
    | idle | rested => contradiction
    | refused puts | filed puts | overfull puts | blocked puts =>
      cases puts with
      | resumed waits' => cases waits.symm.trans waits'
    | expired waits' | fetched waits' | released waits' | gaveUp waits' =>
      cases waits.symm.trans waits'
    | reported drains due | ended drains due =>
      cases drains with
      | resumed waits' =>
        cases waits.symm.trans waits'
        exact ⟨(Option.some.inj answer).symm, due⟩

/-- On a best-effort buffer every wait for readers in progress has begun with a move of
the run. When nobody can go on, there are undelivered entries and the time of the wait
is not over. A wait that ends, at once or later, has the number of the undelivered
entries in its report, has timed out exactly if there are any, and does so only when
its time is over. -/
theorem drains_exact (config : Buffer.Config) (mode : config.mode = .bestEffort)
    (ms : List (Move κ)) :
    let start : Traffic κ := ofConfig config
    let t := start.run ms
    (∀ who closing started deadline woken,
      t.call? who = some (.drain closing started deadline woken) →
        (∃ timeout, deadline = started + timeout ∧ start.Waiting ms who closing timeout started) ∧
        (t.Quiet → start.undelivered ms ≠ [] ∧ t.now < deadline)) ∧
    ∀ m closing timeout began a, start.EndsWait ms m closing timeout began a →
      ∃ r : DrainReport, a = (if closing then t.closeAnswer r else .ok (.report r)) ∧
        r.unclaimed = (start.undelivered ms).length ∧
        (r.timedOut = true ↔ 0 < r.unclaimed) ∧
        (r.timedOut = true → began + timeout ≤ t.now) ∧ r.waited = t.now - began := by
  intro start t
  have counted : t.buffer.unclaimed = (start.undelivered ms).length := unclaimed_eq mode ms
  constructor
  · intro who closing started deadline woken waits
    refine ⟨waiting_of_listed (mem_of_call? waits), fun quiet => ⟨fun none => ?_, ?_⟩⟩
    · have nothing : t.buffer.unclaimed = 0 := by rw [counted, none, List.length_nil]
      have told : woken = true := by
        cases woken with
        | true => rfl
        | false => exact absurd nothing (run_attentive config ms _ _ _ _ (mem_of_call? waits))
      exact resume_drain_goes_on waits (.inl told) (.inl nothing) (quiet who)
    · by_contra late
      have late : deadline ≤ t.now := Nat.le_of_not_lt late
      exact resume_drain_goes_on waits (.inr late) (.inr late) (quiet who)
  · intro m closing timeout began a ends
    obtain ⟨answer, due⟩ := ends.answer
    have timedOut : (t.report began).timedOut = true ↔ t.buffer.unclaimed ≠ 0 := decide_eq_true_iff
    refine ⟨t.report began, answer, counted, timedOut.trans Nat.pos_iff_ne_zero.symm, ?_, rfl⟩
    exact fun late => due.resolve_left (timedOut.mp late)

/-- Two blocks are put, and while somebody waits for their readers one of them is taken. -/
def halfReadMoves : List (Move Nat) :=
  [.put 0 (letterBlock 97), .put 0 (letterBlock 98), .drain 1 50,
    .request 2 (.ofName (letterBlock 97).name) 0, .tick 50]

/-- When the time of the wait is over, it reports the other block. -/
theorem drains_exact_late :
    let start : Traffic Nat := ofConfig { capacity := 4 }
    start.EndsWait halfReadMoves (.resume 1) false 50 0 (.ok (.report ⟨1, true, 50⟩)) ∧
      (start.undelivered halfReadMoves).length = 1 := by
  intro start
  have waits : (start.run halfReadMoves).call? 1 = some (.drain false 0 50 true) := by
    decide +kernel
  obtain ⟨begun, ended⟩ := drains_exact { capacity := 4 } rfl halfReadMoves
  obtain ⟨⟨timeout, time, waiting⟩, -⟩ := begun _ _ _ _ _ waits
  obtain rfl : timeout = 50 := by omega
  have ends : start.EndsWait halfReadMoves (.resume 1) false 50 0 (.ok (.report ⟨1, true, 50⟩)) :=
    ⟨by decide +kernel, 1, .inr ⟨rfl, waiting⟩⟩
  obtain ⟨r, answer, unclaimed, -⟩ := ended _ _ _ _ _ ends
  obtain rfl : _ = r := Answer.report.inj (Except.ok.inj answer)
  exact ⟨ends, unclaimed.symm⟩

end Traffic

end NamedContent
