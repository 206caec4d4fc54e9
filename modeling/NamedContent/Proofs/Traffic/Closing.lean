import Mathlib
import NamedContent.Proofs.Traffic.Waiting

/-!
# What closing throws away

A close that comes to its end empties the buffer, and what no reader has had is
lost. It says so in its own report, or with an error where the buffer is strict.
A second close that still waits at that moment finds nothing unclaimed any more,
and ends as if all had been read. So the reports of closes that overlap can be
trusted exactly if no close ends with unclaimed blocks while another one waits.
-/

set_option autoImplicit false

namespace NamedContent

namespace Traffic

variable {κ : Type} [DecidableEq κ] {t start : Traffic κ} {m : Move κ} {f : Effect κ} {now : Nat}
  {a : Except PublishError Answer}

def discards (t : Traffic κ) (m : Move κ) : List Entry :=
  if t.buffer.phase ≠ .closed ∧ (t.step m).traffic.buffer.phase = .closed then
    t.buffer.entries.values.filter fun e => e.deliveries = 0
  else []

/-- The entries without a reader that have been thrown away in closing. -/
def discarded (t : Traffic κ) : List (Move κ) → List Entry
  | [] => []
  | m :: rest => t.discards m ++ (t.step m).traffic.discarded rest

theorem discarded_append (t : Traffic κ) (ms : List (Move κ)) (m : Move κ) :
    t.discarded (ms ++ [m]) = t.discarded ms ++ (t.run ms).discards m := by
  induction ms generalizing t with
  | nil => exact List.append_nil _
  | cons first rest ih =>
    show t.discards first ++ (t.step first).traffic.discarded (rest ++ [m]) = _
    rw [ih, ← List.append_assoc]
    rfl

/-- The move ends a close with this answer. The close was begun before the buffer was closed. -/
def EndsClose (t : Traffic κ) (m : Move κ) (a : Except PublishError Answer) : Prop :=
  (t.step m).answer = some a ∧ ∃ who, m = .close who ∧ t.buffer.phase ≠ .closed ∨
    m = .resume who ∧ ∃ started deadline woken,
      t.call? who = some (.drain true started deadline woken)

/-- The answer of a close is true of what has been thrown away: a clean report
means nothing, and a strict buffer that threw something away reports a timeout. -/
structure Truthful (config : Buffer.Config) (a : Except PublishError Answer)
    (discarded : List Entry) : Prop where
  clean : ∀ r : DrainReport, a = .ok (.report r) → r.isClean = true → discarded = []
  strict : config.strictDrain = true → discarded ≠ [] →
    a = .error (.timeout (.ofMillis config.drainTimeout))

/-- The move closes a buffer with unclaimed blocks while another close waits for readers. -/
def Overtakes (t : Traffic κ) (m : Move κ) : Prop :=
  t.discards m ≠ [] ∧ ¬(t.step m).traffic.Unclosing

omit [DecidableEq κ] in
theorem closeAnswer_truthful (unclaimed : t.buffer.unclaimed ≠ 0) (started : Nat)
    (discarded : List Entry) :
    Truthful t.buffer.config (t.closeAnswer (t.report started)) discarded := by
  have late : (t.report started).timedOut = true := by simpa [report] using unclaimed
  constructor
  · intro r same clean
    rw [closeAnswer] at same
    split at same
    · contradiction
    · cases same
      rw [DrainReport.isClean, late] at clean
      simp at clean
  · intro strict _
    rw [closeAnswer, late, strict]
    rfl

theorem unclaimed_of_discards (some : t.discards m ≠ []) :
    t.buffer.phase ≠ .closed ∧ (t.step m).traffic.buffer.phase = .closed ∧
      t.buffer.unclaimed ≠ 0 := by
  rw [discards] at some
  split at some
  · rename_i closes
    refine ⟨closes.1, closes.2, fun none => some ?_⟩
    exact List.length_eq_zero_iff.mp none
  · contradiction

theorem Outcome.shuts (outcome : t.Outcome m f) (sound : t.Sound)
    (best : t.buffer.bestEffort = true) (going : t.buffer.phase ≠ .closed)
    (closed : f.buffer.phase = .closed) :
    f.buffer.entries = .empty ∧ .claimed ∈ f.notices ∧ f.added = [] ∧
      ∃ started, f.answer = some (t.closeAnswer (t.report started)) := by
  have claimed (b : Buffer) : .claimed ∈ b.shutNotices :=
    List.mem_append_right _ (List.mem_cons_of_mem _ (List.mem_singleton.mpr rfl))
  obtain same | ⟨-, who, rfl | ⟨rfl, started, deadline, woken, waits⟩⟩ := outcome.phase sound
  · exact absurd (same.symm.trans closed) going
  · cases outcome with
    | closed => exact ⟨rfl, List.mem_cons_of_mem _ (claimed _), rfl, _, rfl⟩
    | closedPersistent _ _ mode =>
      rw [best] at mode
      contradiction
    | idle | closedAgain => exact absurd closed going
    | closing => contradiction
    | refused puts | filed puts | overfull puts | blocked puts => cases puts
    | rested drains | reported drains | ended drains => cases drains
  · cases outcome with
    | ended => exact ⟨rfl, claimed _, rfl, _, rfl⟩
    | refused puts | filed puts | overfull puts | blocked puts =>
      cases puts with
      | resumed waits' => cases waits.symm.trans waits'
    | gaveUp waits' => cases waits.symm.trans waits'
    | idle | expired | fetched | released | rested | reported => exact absurd closed going

theorem Outcome.unclosing_on (outcome : t.Outcome m f) (closed : t.buffer.phase = .closed)
    (unclosing : t.Unclosing) : (f.traffic now).Unclosing := by
  intro who started deadline woken found
  rcases mem_effect_calls.mp found with old | new
  · obtain ⟨_, listed, -⟩ := drain_of_heard old
    exact unclosing _ _ _ _ (outcome.call_cases listed)
  · cases outcome with
    | rested drains =>
      cases List.mem_singleton.mp new
      cases drains with
      | resumed waits => exact unclosing _ _ _ _ (mem_of_call? waits)
    | closing _ going => exact going closed
    | blocked | parked => cases List.mem_singleton.mp new
    | _ => contradiction

omit [DecidableEq κ] in
theorem unclaimed_of_empty (empty : t.buffer.entries = .empty) : t.buffer.unclaimed = 0 := by
  rw [Buffer.unclaimed, empty]
  rfl

theorem endsClose_of_empty {who : κ} {started deadline : Nat}
    (waits : t.call? who = some (.drain true started deadline true))
    (empty : t.buffer.entries = .empty) :
    t.EndsClose (.resume who) (.ok (.report ⟨0, false, t.now - started⟩)) := by
  have nothing : (t.withoutCall who).buffer.unclaimed = 0 := unclaimed_of_empty empty
  refine ⟨?_, who, .inr ⟨rfl, started, deadline, true, waits⟩⟩
  show (t.resume who).answer = _
  rw [resume, waits]
  simp only [true_or, if_true, attemptDrain, nothing, endDrain, endClose, ne_eq, not_true_eq_false,
    decide_false, Bool.false_and, Bool.false_eq_true, if_false]
  exact (finish_shows _ _ _ _).answer

theorem Outcome.overtaken (outcome : t.Outcome m f) (sound : t.Sound)
    (best : t.buffer.bestEffort = true) (going : t.buffer.phase ≠ .closed)
    (closed : f.buffer.phase = .closed) {who : κ} {started deadline : Nat} {woken : Bool}
    (waits : (who, .drain true started deadline woken) ∈ (f.traffic now).calls) :
    (f.traffic now).EndsClose (.resume who) (.ok (.report ⟨0, false, now - started⟩)) := by
  obtain ⟨empty, claimed, added, -⟩ := outcome.shuts sound best going closed
  have told : woken = true := by
    rcases mem_effect_calls.mp waits with kept | new
    · obtain ⟨_, -, rfl⟩ := drain_of_heard kept
      simp [claimed]
    · rw [added] at new
      contradiction
  subst told
  exact endsClose_of_empty ((outcome.sound sound now).call?_eq_some.mpr waits) empty

/-- Without overtaking, what has been thrown away was all thrown away by a close
that left no other one waiting. -/
theorem run_settled (config : Buffer.Config) (ms : List (Move κ))
    (apart : ∀ before m after, ms = before ++ m :: after →
      ¬((ofConfig config).run before).Overtakes m) :
    (ofConfig config).discarded ms = [] ∨
      ((ofConfig config).run ms).buffer.phase = .closed ∧ ((ofConfig config).run ms).Unclosing := by
  induction ms using List.reverseRecOn with
  | nil => exact .inl rfl
  | append_singleton before m ih =>
    have earlier := ih fun first m' after split =>
      apart first m' (after ++ [m]) (by rw [split, List.append_assoc, List.cons_append])
    obtain ⟨f, outcome, shows⟩ := ((ofConfig config).run before).step_explained m
    have sound := run_sound config before
    rw [run_append]
    show _ ∨ (((ofConfig config).run before).step m).traffic.buffer.phase = .closed ∧
      (((ofConfig config).run before).step m).traffic.Unclosing
    obtain none | ⟨closed, unclosing⟩ := earlier
    · by_cases now_none : ((ofConfig config).run before).discards m = []
      · rw [discarded_append, none, now_none]
        exact .inl rfl
      · have stays := apart before m [] rfl
        exact .inr ⟨(unclaimed_of_discards now_none).2.1,
          by_contra fun waiting => stays ⟨now_none, waiting⟩⟩
    · right
      rw [shows.traffic]
      exact ⟨((outcome.change sound.buffer).closed closed (run_nobody config before closed)).1,
        outcome.unclosing_on closed unclosing⟩

/-- On a best-effort buffer, whatever moves follow at whatever point of a run, the
answers of closes are true of what has been thrown away exactly if no close of the run
throws something away while another one waits for readers. -/
theorem closes_truthful_iff (config : Buffer.Config) (mode : config.mode = .bestEffort)
    (ms : List (Move κ)) :
    let start : Traffic κ := ofConfig config
    (∀ before after, ms = before ++ after → ∀ m a, (start.run before).EndsClose m a →
      Truthful config a (start.discarded (before ++ [m]))) ↔
    ∀ before m after, ms = before ++ m :: after → ¬(start.run before).Overtakes m := by
  intro start
  have best (ms : List (Move κ)) : (start.run ms).buffer.bestEffort = true := by
    rw [Buffer.bestEffort, run_config, mode]
    rfl
  constructor
  · intro truthful before m after split overtakes
    obtain ⟨some, waiting⟩ := overtakes
    simp only [Unclosing, not_forall, not_not] at waiting
    obtain ⟨who, started, deadline, woken, waits⟩ := waiting
    obtain ⟨going, closed, -⟩ := unclaimed_of_discards some
    obtain ⟨f, outcome, shows⟩ := (start.run before).step_explained m
    rw [shows.traffic] at waits closed
    have ends := outcome.overtaken (run_sound config before) (best before) going closed waits
    rw [← shows.traffic] at ends
    have clean := (truthful (before ++ [m]) after (by rw [split]; simp) (.resume who) _
      (by rw [run_append]; exact ends)).clean _ rfl rfl
    rw [discarded_append, discarded_append] at clean
    exact some (List.append_eq_nil_iff.mp (List.append_eq_nil_iff.mp clean).1).2
  · intro apart before after split m a ends
    have settled := run_settled config before fun first m' rest eq =>
      apart first m' (rest ++ after) (by rw [split, eq]; simp)
    obtain none | ⟨closed, unclosing⟩ := settled
    · rw [discarded_append, none, List.nil_append]
      by_cases nothing : (start.run before).discards m = []
      · exact ⟨fun _ _ _ => nothing, fun _ some => absurd nothing some⟩
      · obtain ⟨going, closed, unclaimed⟩ := unclaimed_of_discards nothing
        obtain ⟨f, outcome, shows⟩ := (start.run before).step_explained m
        rw [shows.traffic] at closed
        obtain ⟨-, -, -, started, answer⟩ :=
          outcome.shuts (run_sound config before) (best before) going closed
        obtain rfl := Option.some.inj (ends.1.symm.trans (shows.answer.trans answer))
        have truthful := closeAnswer_truthful unclaimed started ((start.run before).discards m)
        rwa [run_config] at truthful
    · obtain ⟨-, who, ⟨-, going⟩ | ⟨-, started, deadline, woken, waits⟩⟩ := ends
      · exact absurd closed going
      · exact absurd (mem_of_call? waits) (unclosing who started deadline woken)

def loneClose : List (Move Nat) := [.put 0 (letterBlock 97), .close 1, .tick 100]

/-- Where only one close waits, it reports what it throws away. -/
theorem closes_truthful_lone :
    let config : Buffer.Config := { strictDrain := true, drainTimeout := 100 }
    let start : Traffic Nat := ofConfig config
    (start.run loneClose).EndsClose (.resume 1) (.error (.timeout (.ofMillis 100))) ∧
      start.discarded (loneClose ++ [.resume 1]) = [⟨letterBlock 97, 0, 0⟩] ∧
      Truthful config (.error (.timeout (.ofMillis 100)))
        (start.discarded (loneClose ++ [.resume 1])) := by
  intro config start
  have ends : (start.run loneClose).EndsClose (.resume 1) (.error (.timeout (.ofMillis 100))) :=
    ⟨by decide +kernel, 1, .inr ⟨rfl, 0, 100, false, by decide +kernel⟩⟩
  have apart : ∀ before m after, loneClose = before ++ m :: after →
      ¬(start.run before).Overtakes m := by
    rintro (_ | ⟨_, _ | ⟨_, _ | ⟨_, _⟩⟩⟩) m after split ⟨some, -⟩
    · obtain ⟨rfl, -⟩ : _ = m ∧ _ := by simpa [loneClose] using split
      exact some (by decide +kernel)
    · obtain ⟨rfl, rfl, -⟩ : _ ∧ _ = m ∧ _ := by simpa [loneClose] using split
      exact some (by decide +kernel)
    · obtain ⟨rfl, rfl, rfl, -⟩ : _ ∧ _ ∧ _ = m ∧ _ := by simpa [loneClose] using split
      exact some (by decide +kernel)
    · simp [loneClose] at split
  refine ⟨ends, by decide +kernel, ?_⟩
  exact (closes_truthful_iff config rfl loneClose).mpr apart loneClose [] (by simp) _ _ ends

/-- A second close begins while the first one waits, and the time of the first one
runs out. -/
def overlappingCloses : List (Move Nat) :=
  [.put 0 (letterBlock 97), .close 1, .tick 50, .close 2, .tick 50, .resume 1]

/-- The first close throws the block away, and the second one, which began before the
buffer was closed, then ends with a clean report although the buffer is strict. -/
theorem clean_report_of_overtaken :
    let config : Buffer.Config := { strictDrain := true, drainTimeout := 100 }
    let start : Traffic Nat := ofConfig config
    (start.run overlappingCloses).EndsClose (.resume 2) (.ok (.report ⟨0, false, 50⟩)) ∧
      start.discarded (overlappingCloses ++ [.resume 2]) = [⟨letterBlock 97, 0, 0⟩] ∧
      ¬Truthful config (.ok (.report ⟨0, false, 50⟩))
        (start.discarded (overlappingCloses ++ [.resume 2])) := by
  intro config start
  have discarded : start.discarded (overlappingCloses ++ [.resume 2]) =
      [⟨letterBlock 97, 0, 0⟩] := by decide +kernel
  refine ⟨⟨by decide +kernel, 2, .inr ⟨rfl, 50, 150, true, by decide +kernel⟩⟩, discarded, ?_⟩
  intro truthful
  have nothing := truthful.clean _ rfl rfl
  rw [discarded] at nothing
  contradiction

end Traffic

end NamedContent
