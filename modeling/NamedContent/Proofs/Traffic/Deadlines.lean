import Mathlib
import NamedContent.Proofs.Traffic.Progress
import NamedContent.Proofs.Traffic.Reading

/-!
# Timeouts

An operation that may wait has a time for it, from the moment at which it begins. When
that is over, the operation ends as soon as its caller goes on, so where nobody can go
on every wait is younger than its time. None reports that its time is over before it is.
-/

set_option autoImplicit false

namespace NamedContent

/-- The answer says of the call that its time is over. That there is no room says so
only where a put waits for room. -/
inductive Call.TimesOut (config : Buffer.Config) : Call → Except PublishError Answer → Prop where
  | put {block : Block} {deadline : Nat} {woken : Bool} (waits : config.overflow ≠ .fail)
      (capacity size : Nat) :
      TimesOut config (.put block deadline woken) (.error (.capacityExceeded capacity size))
  | request {id deadline : Nat} {slot : Slot} :
      TimesOut config (.request id deadline slot) (.ok .nothing)
  | drain {closing woken : Bool} {started deadline : Nat} {r : DrainReport}
      (late : r.timedOut = true) :
      TimesOut config (.drain closing started deadline woken) (.ok (.report r))
  | strictDrain {woken : Bool} {started deadline : Nat} (limit : Duration) :
      TimesOut config (.drain true started deadline woken) (.error (.timeout limit))

theorem Call.TimesOut.of_fresh {config : Buffer.Config} {call : Call}
    {a : Except PublishError Answer} (late : call.fresh.TimesOut config a) :
    call.TimesOut config a := by
  cases call with
  | put =>
    cases late with
    | put waits => exact .put waits _ _
  | request =>
    cases late with
    | request => exact .request
  | drain =>
    cases late with
    | drain late => exact .drain late
    | strictDrain => exact .strictDrain _

namespace Traffic

variable {κ : Type}

def Move.timeout (config : Buffer.Config) : Move κ → Nat
  | .put _ _ => config.putTimeout
  | .request _ _ timeout => timeout
  | .drain _ timeout => timeout
  | .close _ => config.drainTimeout
  | _ => 0

variable [DecidableEq κ] {t start : Traffic κ} {m first : Move κ} {f : Effect κ}
  {ms : List (Move κ)} {who : κ} {call : Call} {timeout began : Nat}
  {a : Except PublishError Answer}

/-- The move ends the operation with this answer, at once or after some time. -/
def Ends (start : Traffic κ) (ms : List (Move κ)) (m first : Move κ) (who : κ)
    (timeout began : Nat) (call : Call) (a : Except PublishError Answer) : Prop :=
  ((start.run ms).step m).answer = some a ∧
    (m = first ∧ (start.run ms).Begins first who timeout call ∧ began = (start.run ms).now ∨
      m = .resume who ∧ start.InProgress ms first who timeout began call)

theorem Begins.timeout_eq (begins : t.Begins m who timeout call) :
    timeout = m.timeout t.buffer.config := by
  cases begins <;> rfl

omit [DecidableEq κ] in
theorem finish_isSome (t : Traffic κ) (b : Buffer) (ns : List Notice)
    (answer : Except PublishError Answer) : (t.finish b ns answer).answer.isSome = true := by
  rw [(finish_shows t b ns answer).answer]
  rfl

theorem resume_due (waits : t.call? who = some call) (due : call.deadline ≤ t.now) :
    (t.resume who).answer.isSome = true := by
  cases call with
  | put block deadline woken =>
    rw [resume_put waits, attemptPut]
    split
    · split
      · exact finish_isSome _ _ _ _
      · exact finish_isSome _ _ _ _
      · rw [if_pos (.inr due)]
        exact finish_isSome _ _ _ _
    · rw [if_pos (show deadline ≤ t.now from due)]
      exact finish_isSome _ _ _ _
  | request id deadline slot =>
    cases slot with
    | empty =>
      have ended : (t.resume who).answer = _ := resume_empty waits due
      rw [ended]
      rfl
    | handed block =>
      simp only [resume, waits]
      exact finish_isSome _ _ _ _
    | released =>
      simp only [resume, waits]
      exact finish_isSome _ _ _ _
  | drain closing started deadline woken =>
    replace due : deadline ≤ t.now := due
    simp only [resume, waits, due, or_true, if_true, attemptDrain, withoutCall]
    cases closing with
    | false => rfl
    | true => exact finish_isSome _ _ _ _

theorem InProgress.call? {config : Buffer.Config}
    (going : (ofConfig config).InProgress ms first who timeout began call) :
    ∃ call', ((ofConfig config).run ms).call? who = some call' ∧ call'.fresh = call ∧
      call'.deadline = began + timeout := by
  obtain ⟨call', listed, same⟩ := going.listed
  refine ⟨call', (run_sound config ms).call?_eq_some.mpr listed, same, ?_⟩
  rw [← call'.fresh_deadline, same]
  exact going.deadline

section Late

variable {config : Buffer.Config}

omit [DecidableEq κ] in
theorem late_of_full {block : Block} {deadline : Nat} {woken : Bool} {b : Buffer}
    (sound : t.Sound) (tried : t.buffer.tryInsert block = .full b)
    (ends : b.config.overflow = .fail ∨ deadline ≤ t.now)
    (late : (Call.put block deadline woken).TimesOut t.buffer.config a) : deadline ≤ t.now := by
  cases late with
  | put waits =>
    refine ends.resolve_left ?_
    rwa [(Buffer.change_of_full tried).config sound.buffer]

omit [DecidableEq κ] in
theorem late_of_report {closing woken : Bool} {started deadline : Nat}
    (ends : t.buffer.unclaimed = 0 ∨ deadline ≤ t.now)
    (late : (Call.drain closing started deadline woken).TimesOut config
      (.ok (.report (t.report started)))) : deadline ≤ t.now := by
  cases late with
  | drain late => exact ends.resolve_left (of_decide_eq_true late)

omit [DecidableEq κ] in
theorem late_of_closeAnswer {woken : Bool} {started deadline : Nat}
    (ends : t.buffer.unclaimed = 0 ∨ deadline ≤ t.now)
    (late : (Call.drain true started deadline woken).TimesOut config
      (t.closeAnswer (t.report started))) : deadline ≤ t.now := by
  rw [closeAnswer] at late
  split at late
  · rename_i strict
    exact ends.resolve_left (of_decide_eq_true (Bool.and_eq_true_iff.mp strict).1)
  · exact late_of_report ends late

theorem Begins.late (begins : t.Begins m who timeout call) (sound : t.Sound)
    (outcome : t.Outcome m f) (answer : f.answer = some a)
    (late : call.TimesOut t.buffer.config a) : call.deadline ≤ t.now := by
  cases begins with
  | put free =>
    cases outcome with
    | idle | blocked => contradiction
    | refused puts tried =>
      cases answer
      cases late with
      | put _ capacity size => exact absurd rfl (Buffer.tryInsert_refused tried capacity size)
    | filed puts =>
      cases answer
      cases late
    | overfull puts tried ends =>
      cases puts with
      | begun =>
        cases answer
        exact late_of_full sound tried ends late
    | rested drains | reported drains | ended drains => cases drains
  | request free =>
    cases outcome with
    | idle | parked => contradiction
    | denied | served => cases answer; cases late
    | missed => exact le_of_eq (Nat.add_zero t.now)
    | refused puts | filed puts | overfull puts | blocked puts => cases puts
    | rested drains | reported drains | ended drains => cases drains
  | drain free =>
    cases outcome with
    | idle | rested => contradiction
    | reported drains ends =>
      cases drains with
      | begun =>
        cases answer
        exact late_of_report ends late
    | refused puts | filed puts | overfull puts | blocked puts => cases puts
    | ended drains => cases drains
  | close free going mode =>
    cases outcome with
    | idle | closing => contradiction
    | closedAgain _ closed => exact absurd closed going
    | closed _ _ _ ends =>
      cases answer
      exact late_of_closeAnswer ends late
    | closedPersistent _ _ other => cases mode.symm.trans other
    | refused puts | filed puts | overfull puts | blocked puts => cases puts
    | rested drains | reported drains | ended drains => cases drains

theorem late_of_resume (waits : t.call? who = some call) (sound : t.Sound)
    (outcome : t.Outcome (.resume who) f) (answer : f.answer = some a)
    (late : call.TimesOut t.buffer.config a) : call.deadline ≤ t.now := by
  cases outcome with
  | idle | blocked | rested => contradiction
  | refused puts tried =>
    cases puts with
    | resumed waits' =>
      cases waits.symm.trans waits'
      cases answer
      cases late with
      | put _ capacity size => exact absurd rfl (Buffer.tryInsert_refused tried capacity size)
  | filed puts =>
    cases puts with
    | resumed waits' =>
      cases waits.symm.trans waits'
      cases answer
      cases late
  | overfull puts tried ends =>
    cases puts with
    | resumed waits' =>
      cases waits.symm.trans waits'
      cases answer
      exact late_of_full sound tried ends late
  | expired waits' due | gaveUp waits' due =>
    cases waits.symm.trans waits'
    exact due
  | fetched waits' | released waits' =>
    cases waits.symm.trans waits'
    cases answer
    cases late
  | reported drains ends =>
    cases drains with
    | resumed waits' =>
      cases waits.symm.trans waits'
      cases answer
      exact late_of_report ends late
  | ended drains ends =>
    cases drains with
    | resumed waits' =>
      cases waits.symm.trans waits'
      cases answer
      exact late_of_closeAnswer ends late

theorem Ends.late (ends : (ofConfig config).Ends ms m first who timeout began call a)
    (late : call.TimesOut config a) : began + timeout ≤ ((ofConfig config).run ms).now := by
  have sound : ((ofConfig config).run ms).Sound := run_sound config ms
  obtain ⟨answered, how⟩ := ends
  obtain ⟨f, outcome, shows⟩ := ((ofConfig config).run ms).step_explained m
  have answer : f.answer = some a := shows.answer.symm.trans answered
  rw [← run_config config ms] at late
  obtain ⟨rfl, begins, rfl⟩ | ⟨rfl, going⟩ := how
  · exact begins.deadline ▸ begins.late sound outcome answer late
  · obtain ⟨call', waits, rfl, deadline⟩ := going.call?
    exact deadline ▸ late_of_resume waits sound outcome answer (.of_fresh late)

end Late

/-- Every call is an operation in progress. An operation in progress is the same call as
when it began, with an end that never moves; it ends if its caller goes on when its time
is over, so when nobody can go on there is time left for it. An operation reports that
its time is over only when it is. -/
theorem timeouts_hard (config : Buffer.Config) (ms : List (Move κ)) :
    let start : Traffic κ := ofConfig config
    let t := start.run ms
    (∀ who call, t.call? who = some call →
      ∃ first timeout began, start.InProgress ms first who timeout began call.fresh) ∧
    (∀ first who timeout began call, start.InProgress ms first who timeout began call →
      timeout = first.timeout config ∧
      (∃ call', t.call? who = some call' ∧ call'.fresh = call ∧
        call'.deadline = began + timeout) ∧
      (began + timeout ≤ t.now → (t.step (.resume who)).answer.isSome = true) ∧
      (t.Quiet → t.now < began + timeout)) ∧
    ∀ m first who timeout began call a, start.Ends ms m first who timeout began call a →
      call.TimesOut config a → began + timeout ≤ t.now := by
  intro start t
  refine ⟨fun who call waits => inProgress_of_listed (mem_of_call? waits), ?_,
    fun _ _ _ _ _ _ _ ends late => ends.late late⟩
  intro first who timeout began call going
  obtain ⟨call', waits, same, deadline⟩ := going.call?
  have ended (due : began + timeout ≤ t.now) : (t.resume who).answer.isSome = true :=
    resume_due waits (deadline ▸ due)
  refine ⟨?_, ⟨call', waits, same, deadline⟩, ended, fun quiet => ?_⟩
  · obtain ⟨before, since, -, begins, -, -⟩ := going
    rw [begins.timeout_eq, run_config]
  · by_contra late
    have answer := ended (Nat.le_of_not_lt late)
    rw [quiet who] at answer
    contradiction

/-- A put waits for room, is woken to no avail, and waits on. -/
def fruitlessMoves : List (Move Nat) :=
  [.put 0 (letterBlock 97), .put 1 (letterBlock 98), .tick 30, .setCapacity 1, .resume 1, .tick 20]

/-- It reports a full buffer when the time is over that it had at first. -/
theorem timeouts_hard_fruitless :
    let config : Buffer.Config := { capacity := 1, putTimeout := 50 }
    let start : Traffic Nat := ofConfig config
    ∃ first timeout began, start.Ends fruitlessMoves (.resume 1) first 1 timeout began
        (.put (letterBlock 98) 50 false) (.error (.capacityExceeded 1 1)) ∧
      began + timeout = 50 ∧ 50 ≤ (start.run fruitlessMoves).now := by
  intro config start
  have waits : (start.run fruitlessMoves).call? 1 = some (.put (letterBlock 98) 50 false) := by
    decide +kernel
  obtain ⟨begun, kept, reported⟩ := timeouts_hard config fruitlessMoves
  obtain ⟨first, timeout, began, going⟩ := begun _ _ waits
  obtain ⟨-, ⟨call, waits', -, deadline⟩, -⟩ := kept _ _ _ _ _ going
  cases waits.symm.trans waits'
  have ends : start.Ends fruitlessMoves (.resume 1) first 1 timeout began
      (.put (letterBlock 98) 50 false) (.error (.capacityExceeded 1 1)) :=
    ⟨by decide +kernel, .inr ⟨rfl, going⟩⟩
  have time : 50 = began + timeout := deadline
  refine ⟨first, timeout, began, ends, time.symm, ?_⟩
  rw [time]
  exact reported _ _ _ _ _ _ _ ends (.put (by decide) 1 1)

end Traffic

end NamedContent
