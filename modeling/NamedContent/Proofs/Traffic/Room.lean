import Mathlib
import NamedContent.Proofs.Traffic.Balance

/-!
# Puts that wait for room

A waiting put is woken by every change after which it might find room, but for
one: a put that replaces a block and whose copy is taken at once, by a standing
filter, makes an entry that could be swept, and tells only those who wait for
readers. Without such silent deliveries no put waits in vain, and with one a
put that waits at that moment can run into its timeout although there is room.
-/

set_option autoImplicit false

namespace NamedContent

namespace Traffic

variable {κ : Type} [DecidableEq κ] {t : Traffic κ} {m : Move κ} {f : Effect κ} {now : Nat}

/-- No caller can go on at the current time. -/
def Quiet (t : Traffic κ) : Prop := ∀ who, t.resume who = t.idle

/-- No put waits in vain: when nobody can go on, no waiting put would find
room, and one that reports a full buffer leaves it really full. -/
structure NoLostWakeup (t : Traffic κ) : Prop where
  retried : t.Quiet → ∀ who block deadline woken,
    t.call? who = some (.put block deadline woken) → ∀ b ns, t.buffer.tryInsert block ≠ .filed b ns
  reported : ∀ who block deadline woken, t.call? who = some (.put block deadline woken) →
    ∀ capacity size, (t.resume who).answer = some (.error (.capacityExceeded capacity size)) →
      (t.resume who).traffic.buffer.ReallyFull block.name

/-- In best-effort mode the move replaces a block, somebody takes the new copy
at once, and a put goes on waiting that nobody has woken. -/
def SilentDelivery (t : Traffic κ) (m : Move κ) : Prop :=
  t.buffer.bestEffort = true ∧ ∃ block, t.inserts? m = some block ∧
    t.buffer.entries.contains block.name = true ∧
    (∃ e, (t.step m).traffic.buffer.entries.find? block.name = some e ∧ e.deliveries ≠ 0) ∧
    ∃ who waiting deadline, (t.step m).traffic.call? who = some (.put waiting deadline false)

/-- Every put that waits and has not been woken would find the buffer full. -/
def Patient (t : Traffic κ) : Prop :=
  ∀ who block deadline, (who, .put block deadline false) ∈ t.calls →
    t.buffer.ReallyFull block.name

theorem Trade.reallyFull (trade : t.Trade m f) (sound : t.Sound)
    (config : f.buffer.config = t.buffer.config) (quiet : .space ∉ f.notices) {name : Name}
    (full : t.buffer.ReallyFull name)
    (unread : ∀ block, t.inserts? m = some block → t.buffer.entries.contains block.name = true →
      ∀ e, f.buffer.entries.find? block.name = some e → t.buffer.bestEffort = true →
        e.deliveries = 0) : f.buffer.ReallyFull name := by
  cases trade with
  | @files _ block _ _ tried _ inserts =>
    have filed := filed_of_tryInsert sound tried
    have present := full.present_of_filed tried
    have entries := filed.entries
    rw [full.makeRoom_entries] at entries
    apply full.replaced present config _ entries
    · apply unread block inserts present
      rw [entries, Table.find?_insert, if_pos rfl]
    · rw [filed.capacity, Buffer.makeRoom_capacity]
  | serves _ _ taken _ notices =>
    obtain ⟨e, listed, -, -, buffer⟩ := Buffer.take?_eq_some sound.buffer taken
    have persistent : t.buffer.bestEffort = false := by
      rw [notices, Buffer.deliveryNotices] at quiet
      by_contra best
      rw [Buffer.bestEffort, config] at quiet
      rw [Bool.not_eq_false, Buffer.bestEffort] at best
      simp [best] at quiet
    have present : t.buffer.entries.contains e.block.name = true :=
      Table.contains_iff.mpr ⟨e, listed⟩
    apply full.replaced present config
    · rw [buffer]
    · rw [buffer]
    · intro best
      rw [persistent] at best
      contradiction
  | fetches _ _ _ buffer => rwa [buffer]
  | neither calm =>
    obtain ⟨capacity, same | ⟨mode, swept⟩⟩ := calm.stays quiet
    · exact full.of_same config capacity same
    · exact full.of_same config capacity (swept.trans (Buffer.sweep_entries (full.unswept mode)))

theorem Outcome.patient (outcome : t.Outcome m f) (trade : t.Trade m f) (sound : t.Sound)
    (h : t.Patient) (traffic : (t.step m).traffic = f.traffic now)
    (spoken : ¬t.SilentDelivery m) : (f.traffic now).Patient := by
  intro who block deadline found
  rcases mem_effect_calls.mp found with old | new
  · obtain ⟨kept, quiet⟩ := waiting_of_heard old
    have config := (outcome.change sound.buffer).config sound.buffer
    apply trade.reallyFull sound config quiet (h who block deadline (outcome.call_cases kept))
    intro replaced inserts present e stored best
    by_contra read
    -- somebody has the new copy and this put waits on: that is a silent delivery
    apply spoken
    refine ⟨best, replaced, inserts, present, ⟨e, ?_, read⟩, who, block, deadline, ?_⟩
    · rw [traffic]
      exact stored
    · have after := step_sound sound m
      rw [after.call?_eq_some, traffic]
      exact found
  · obtain none | ⟨_, -, ⟨_, _, eq, -, tried⟩ | ⟨_, _, eq, -⟩ | ⟨_, _, _, eq⟩⟩ :=
      outcome.added_cases
    · rw [none] at new
      contradiction
    · rw [eq] at new
      cases List.mem_singleton.mp new
      exact Buffer.reallyFull_of_full tried
    · rw [eq] at new
      cases List.mem_singleton.mp new
    · rw [eq] at new
      cases List.mem_singleton.mp new

theorem run_patient (sound : t.Sound) (h : t.Patient) (ms : List (Move κ))
    (spoken : ∀ before m after, ms = before ++ m :: after → ¬(t.run before).SilentDelivery m) :
    (t.run ms).Patient := by
  induction ms generalizing t with
  | nil => exact h
  | cons m rest ih =>
    obtain ⟨f, outcome, shows⟩ := t.step_explained m
    apply ih (step_sound sound m)
    · rw [shows.traffic]
      exact outcome.patient (outcome.trade shows.answer) sound h shows.traffic
        (spoken [] m rest rfl)
    · intro before m' after split
      exact spoken (m :: before) m' after (by rw [split]; rfl)

omit [DecidableEq κ] in
theorem finish_buffer (t : Traffic κ) (b : Buffer) (ns : List Notice)
    (answer : Except PublishError Answer) : (t.finish b ns answer).traffic.buffer = b := by
  rw [(finish_shows t b ns answer).traffic]
  rfl

theorem resume_put {who : κ} {block : Block} {deadline : Nat} {woken : Bool}
    (waits : t.call? who = some (.put block deadline woken)) : t.resume who =
      if woken then (t.withoutCall who).attemptPut who block deadline
      else if deadline ≤ t.now then
        (t.withoutCall who).finish t.buffer [] (capacityExceeded t.buffer)
      else t.idle := by
  simp only [resume, waits]

theorem woken_goes_on (sound : t.Sound) {who : κ} {block : Block} {deadline : Nat}
    (waits : t.call? who = some (.put block deadline true)) : t.resume who ≠ t.idle := by
  rw [resume_put waits, if_pos rfl]
  intro same
  have answer := congrArg Turn.answer same
  have calls := congrArg (fun turn => turn.traffic.calls) same
  rw [attemptPut] at answer calls
  split at answer
  · cases answer
  · cases answer
  · -- it may wait again, but then it does so unwoken
    rename_i b tried
    rw [tried] at calls
    dsimp only at calls
    by_cases ends : b.config.overflow = .fail ∨ deadline ≤ (t.withoutCall who).now
    · rw [if_pos ends] at answer
      cases answer
    · rw [if_neg ends] at calls
      have again : (who, .put block deadline false) ∈ t.calls := by
        have kept : (t.withoutCall who).calls ++ [(who, .put block deadline false)] = t.calls :=
          calls
        rw [← kept]
        exact List.mem_append_right _ (List.mem_singleton.mpr rfl)
      cases sound.call_unique again (mem_of_call? waits)

omit [DecidableEq κ] in
theorem attemptPut_reports {who : κ} {block : Block} {deadline capacity size : Nat}
    (answer : (t.attemptPut who block deadline).answer =
      some (.error (.capacityExceeded capacity size))) :
    (t.attemptPut who block deadline).traffic.buffer.ReallyFull block.name := by
  rw [attemptPut] at answer ⊢
  split at answer
  · rename_i error tried
    cases answer
    exact absurd rfl (Buffer.tryInsert_refused tried capacity size)
  · cases answer
  · rename_i b tried
    by_cases ends : b.config.overflow = .fail ∨ deadline ≤ t.now
    · rw [if_pos ends, finish_buffer]
      exact Buffer.reallyFull_of_full tried
    · rw [if_neg ends] at answer
      cases answer

theorem Patient.noLostWakeup (h : t.Patient) (sound : t.Sound) : t.NoLostWakeup where
  retried := by
    intro quiet who block deadline woken waits b ns
    cases woken with
    | true => exact absurd (quiet who) (woken_goes_on sound waits)
    | false => exact (h who block deadline (mem_of_call? waits)).not_filed
  reported := by
    intro who block deadline woken waits capacity size answer
    rw [resume_put waits] at answer ⊢
    cases woken with
    | true =>
      rw [if_pos rfl] at answer ⊢
      exact attemptPut_reports answer
    | false =>
      rw [if_neg Bool.false_ne_true] at answer ⊢
      by_cases late : deadline ≤ t.now
      · rw [if_pos late, finish_buffer]
        exact h who block deadline (mem_of_call? waits)
      · rw [if_neg late] at answer
        cases answer

theorem SilentDelivery.strands (silent : t.SilentDelivery m) (sound : t.Sound) :
    ∃ k, ¬((t.step m).traffic.run [.tick k]).NoLostWakeup := by
  obtain ⟨best, block, -, -, ⟨e, stored, read⟩, who, waiting, deadline, waits⟩ := silent
  refine ⟨deadline, ?_⟩
  intro kept
  have later : ((t.step m).traffic.run [.tick deadline]).call? who =
      some (.put waiting deadline false) := waits
  have late : deadline ≤ ((t.step m).traffic.run [.tick deadline]).now := Nat.le_add_left _ _
  have resumed := resume_put later
  rw [if_neg Bool.false_ne_true, if_pos late] at resumed
  have full := kept.reported who waiting deadline false later _ _ (congrArg Turn.answer resumed)
  rw [resumed, finish_buffer] at full
  have mode : (t.step m).traffic.buffer.bestEffort = true := by
    obtain ⟨f, outcome, shows⟩ := t.step_explained m
    rw [shows.traffic]
    exact ((outcome.change sound.buffer).bestEffort sound.buffer).trans best
  exact read (full.unswept mode _ (Table.find?_eq_some.mp stored))

/-- No put waits in vain anywhere in a run, whatever time passes, exactly if no
move of the run is a silent delivery. -/
theorem noLostWakeup_iff (config : Buffer.Config) (ms : List (Move κ)) :
    (∀ before after, ms = before ++ after →
      ∀ k, ((ofConfig config).run (before ++ [.tick k])).NoLostWakeup) ↔
    ∀ before m after, ms = before ++ m :: after →
      ¬((ofConfig config).run before).SilentDelivery m := by
  constructor
  · intro kept before m after split silent
    obtain ⟨k, stranded⟩ := silent.strands (run_sound config before)
    apply stranded
    have here := kept (before ++ [m]) after (by rw [split]; simp) k
    rwa [run_append, run_append] at here
  · intro spoken before after split k
    have start : (ofConfig config : Traffic κ).Patient := by
      intro who block deadline listed
      contradiction
    have patient : ((ofConfig config).run before).Patient := by
      apply run_patient (ofConfig_sound config) start
      intro first m rest inside
      exact spoken first m (rest ++ after) (by rw [split, inside]; simp)
    have waited : ((ofConfig config).run (before ++ [.tick k])).Patient := by
      rw [run_append]
      exact patient
    exact waited.noLostWakeup (run_sound config _)

def letterBlock (letter : UInt8) : Block where
  name := ⟨[⟨[letter]⟩]⟩
  sequence := 0
  payload := []
  info := ⟨default, 0, .data, .key [], none, none⟩
  signature := ⟨[], .single⟩

/-- With one place taken by `a`, a put of `b` waits, and a filter takes the next `a`. -/
def strandingMoves : List (Move Nat) :=
  [.put 0 (letterBlock 97), .put 1 (letterBlock 98),
    .subscribe (.ofName (letterBlock 97).name) none, .put 2 (letterBlock 97)]

/-- Nobody can go on after these moves, the put of `b` waits although it would
find room, and when its time is over it reports a full buffer. -/
theorem put_stranded_by_replacement :
    let t := (ofConfig { capacity := 1 }).run strandingMoves
    t.Quiet ∧ t.call? 1 = some (.put (letterBlock 98) 10000 false) ∧
      (∃ b ns, t.buffer.tryInsert (letterBlock 98) = .filed b ns) ∧
      ((t.run [.tick 10000]).resume 1).answer = some (.error (.capacityExceeded 1 1)) := by
  intro t
  have calls : t.calls = [(1, .put (letterBlock 98) 10000 false)] := by decide +kernel
  have now : t.now = 0 := by decide +kernel
  have waits : t.call? 1 = some (.put (letterBlock 98) 10000 false) := by rw [call?, calls]; rfl
  refine ⟨?_, waits, ?_, by decide +kernel⟩
  · intro who
    by_cases same : who = 1
    · subst same
      rw [resume_put waits, now]
      rfl
    · have absent : t.call? who = none := by
        rw [call?_eq_none, calls]
        simpa using same
      simp only [resume, absent]
  · have filed : (t.buffer.tryInsert (letterBlock 98)).isFiled = true := by decide +kernel
    exact Buffer.Insertion.isFiled_iff.mp filed

end Traffic

end NamedContent
