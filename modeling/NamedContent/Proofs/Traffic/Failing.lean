import Mathlib
import NamedContent.Proofs.Traffic.Callers
import NamedContent.Proofs.Traffic.Losses
import NamedContent.Proofs.Traffic.Progress
import NamedContent.Proofs.Traffic.Watching

/-!
# Puts that come to nothing

A put that ends in an error, at once or after some waiting, or is dropped while it
waits, has never had its block in the buffer. In best-effort mode an attempt that finds
the buffer full may have swept what had been delivered. Nothing else comes of it.
-/

set_option autoImplicit false

namespace NamedContent.Traffic

variable {κ : Type} [DecidableEq κ] {t start : Traffic κ} {m : Move κ} {who : κ} {block : Block}

/-- The course of a put that comes to nothing, from the move that begins it, while its
caller is free, to the move of its caller that ends it with an error or drops it. Up to
then its caller is busy with it. Others may move in between. -/
structure FailedPut (start : Traffic κ) (before course : List (Move κ)) (who : κ)
    (block : Block) : Prop where
  begins : course.head? = some (.put who block)
  free : (start.run before).call? who = none
  busy : ∀ mid m after, course = mid ++ m :: after → mid ≠ [] →
    (start.run (before ++ mid)).call? who ≠ none
  fails : ∃ mid last, course = mid ++ [last] ∧ (last = .cancel who ∨ last.caller? = some who ∧
    ∃ error, ((start.run (before ++ mid)).step last).answer = some (.error error))

/-- A caller's move that leaves no trace. The others' calls in progress stay as they are,
and nobody is woken. The buffer stays as it is, or it has been swept of what had been
delivered, in best-effort mode and where it is full for the name. -/
structure Traceless (t : Traffic κ) (turn : Turn κ) (who : κ) (name : Name) : Prop where
  others : turn.traffic.withoutCall who =
    { t.withoutCall who with buffer := turn.traffic.buffer }
  woken : turn.woken = []
  buffer : turn.traffic.buffer = t.buffer ∨
    t.buffer.bestEffort = true ∧ t.buffer.isFullFor name = true ∧
      turn.traffic.buffer = t.buffer.sweep

theorem withoutCall_of_free (free : t.call? who = none) : t.withoutCall who = t := by
  have others : t.calls.filter (fun c => c.1 ≠ who) = t.calls := by
    rw [List.filter_eq_self]
    rintro ⟨_, call⟩ listed
    simpa using fun same => call?_eq_none.mp free (List.mem_map.mpr ⟨_, listed, same⟩)
  rw [withoutCall, others]

theorem idle_traceless (t : Traffic κ) (who : κ) (name : Name) :
    t.Traceless t.idle who name :=
  ⟨rfl, rfl, .inl rfl⟩

theorem finish_others (t : Traffic κ) (who : κ) (b : Buffer)
    (answer : Except PublishError Answer) :
    ((t.withoutCall who).finish b [] answer).traffic.withoutCall who =
      { t.withoutCall who with buffer := b } := by
  simp [finish, hearAll, withoutCall]

theorem finish_traceless (t : Traffic κ) (who : κ) (name : Name)
    (answer : Except PublishError Answer) :
    t.Traceless ((t.withoutCall who).finish t.buffer [] answer) who name :=
  ⟨t.finish_others who t.buffer answer, rfl, .inl rfl⟩

theorem attemptPut_traceless (t : Traffic κ) (who : κ) (block : Block) (deadline : Nat)
    (vain : ∀ answer, ((t.withoutCall who).attemptPut who block deadline).answer ≠
      some (.ok answer)) :
    t.Traceless ((t.withoutCall who).attemptPut who block deadline) who block.name := by
  rw [attemptPut] at vain ⊢
  split
  · exact finish_traceless t who block.name _
  · rename_i b ns tried
    rw [tried] at vain
    exact absurd rfl (vain _)
  · rename_i b tried
    obtain ⟨rfl, -⟩ := Buffer.tryInsert_full tried
    have room : t.buffer.makeRoom block.name = t.buffer ∨
        t.buffer.bestEffort = true ∧ t.buffer.isFullFor block.name = true ∧
          t.buffer.makeRoom block.name = t.buffer.sweep := by
      obtain same | ⟨full, mode, swept⟩ := t.buffer.makeRoom_cases block.name
      · exact .inl same
      · exact .inr ⟨mode, full, swept⟩
    split
    · exact ⟨t.finish_others who _ _, rfl, room⟩
    · refine ⟨?_, rfl, room⟩
      simp [wait, withoutCall]

theorem PutsOn.traceless (puts : t.PutsOn m who block)
    (vain : ∀ answer, (t.step m).answer ≠ some (.ok answer)) :
    t.Traceless (t.step m) who block.name := by
  obtain ⟨rfl, free⟩ | ⟨rfl, deadline, woken, waits⟩ := puts
  · rw [step, begin_free free] at vain ⊢
    have alone := attemptPut_traceless t who block (t.now + t.buffer.config.putTimeout)
    rw [withoutCall_of_free free] at alone
    exact alone vain
  · have goes_on : t.step (.resume who) = t.resume who := rfl
    rw [goes_on, resume_put waits] at vain ⊢
    split
    · rw [if_pos ‹_›] at vain
      exact attemptPut_traceless t who block deadline vain
    · split
      · exact finish_traceless t who block.name _
      · exact idle_traceless t who block.name

inductive PutError (name : Name) : PublishError → Prop where
  | closed : PutError name .closedBuffer
  | outside : PutError name (.invalidArgument (.outsideNamespaces name))
  | overfull (capacity size : Nat) : PutError name (.capacityExceeded capacity size)

omit [DecidableEq κ] in
theorem attemptPut_error {deadline : Nat} {error : PublishError}
    (answer : (t.attemptPut who block deadline).answer = some (.error error)) :
    PutError block.name error := by
  rw [attemptPut] at answer
  split at answer
  · rename_i refusal tried
    cases answer
    obtain ⟨-, rfl⟩ | ⟨-, -, rfl⟩ := Buffer.tryInsert_refused_iff.mp tried
    · exact .closed
    · exact .outside
  · cases answer
  · split at answer
    · cases answer
      exact .overfull _ _
    · cases answer

theorem PutsOn.error (puts : t.PutsOn m who block) {error : PublishError}
    (answer : (t.step m).answer = some (.error error)) : PutError block.name error := by
  obtain ⟨rfl, free⟩ | ⟨rfl, deadline, woken, waits⟩ := puts
  · rw [step, begin_free free] at answer
    exact attemptPut_error answer
  · replace answer : (t.resume who).answer = some (.error error) := answer
    rw [resume_put waits] at answer
    split at answer
    · exact attemptPut_error answer
    · split at answer
      · cases answer
        exact .overfull _ _
      · cases answer

namespace FailedPut

variable {config : Buffer.Config} {before course mid after : List (Move κ)}

theorem putting (failed : (ofConfig config).FailedPut before course who block)
    (split : course = mid ++ m :: after) :
    mid = [] ∧ m = .put who block ∨
      ∃ deadline woken, ((ofConfig config).run (before ++ mid)).call? who =
        some (.put block deadline woken) := by
  cases mid with
  | nil =>
    have begins := failed.begins
    rw [split] at begins
    exact .inl ⟨rfl, Option.some.inj begins⟩
  | cons first since =>
    have begins := failed.begins
    rw [split] at begins
    obtain rfl : first = .put who block := Option.some.inj begins
    -- up to here the caller has been busy, so the call is still the one that the put began
    have going : (ofConfig config).InProgress (before ++ .put who block :: since)
        (.put who block) who ((ofConfig config).run before).buffer.config.putTimeout
        ((ofConfig config).run before).now
        (.put block (((ofConfig config).run before).now +
          ((ofConfig config).run before).buffer.config.putTimeout) false) := by
      refine ⟨before, since, rfl, .put failed.free, rfl, fun mid' after' inner => ?_⟩
      cases after' with
      | nil =>
        obtain rfl : since = mid' := inner.trans (List.append_nil mid')
        exact failed.busy _ m after split (List.cons_ne_nil _ _)
      | cons next later =>
        refine failed.busy _ next (later ++ m :: after) ?_ (List.cons_ne_nil _ _)
        rw [split, inner]
        simp
    obtain ⟨call, listed, same⟩ := going.listed
    have waits := (run_sound config _).call?_eq_some.mpr listed
    cases call with
    | put block' deadline woken =>
      obtain ⟨rfl, -⟩ := Call.put.inj same
      exact .inr ⟨deadline, woken, waits⟩
    | request => cases same
    | drain => cases same

theorem vain (failed : (ofConfig config).FailedPut before course who block)
    (split : course = mid ++ m :: after)
    (puts : ((ofConfig config).run (before ++ mid)).PutsOn m who block) (answer : Answer) :
    (((ofConfig config).run (before ++ mid)).step m).answer ≠ some (.ok answer) := by
  cases after with
  | nil =>
    obtain ⟨mid', last, split', ends⟩ := failed.fails
    obtain ⟨rfl, same⟩ := List.append_inj' (split.symm.trans split') rfl
    obtain rfl := List.singleton_inj.mp same
    obtain rfl | ⟨-, error, fails⟩ := ends
    · obtain ⟨begun, -⟩ | ⟨resumed, -⟩ := puts <;> contradiction
    · rw [fails]
      nofun
  | cons next later =>
    have busy := failed.busy (mid ++ [m]) next later (by rw [split]; simp) (by simp)
    rw [← List.append_assoc, run_snoc] at busy
    obtain ⟨none, -⟩ | ⟨-, free⟩ := step_settles puts
    · rw [none]
      nofun
    · exact absurd free busy

theorem own_cases (failed : (ofConfig config).FailedPut before course who block)
    (split : course = mid ++ m :: after) (own : m.caller? = some who) :
    let t := (ofConfig config).run (before ++ mid)
    t.PutsOn m who block ∨
      t.step m = (t.withoutCall who).finish t.buffer [] (.ok .done) ∨ t.step m = t.idle := by
  intro t
  obtain ⟨rfl, rfl⟩ | ⟨deadline, woken, waits⟩ := failed.putting split
  · refine .inl (.inl ⟨rfl, ?_⟩)
    show ((ofConfig config).run (before ++ [])).call? who = none
    rw [List.append_nil]
    exact failed.free
  · have waits : t.call? who = some (.put block deadline woken) := waits
    have busy (turn : Turn κ) : t.begin who turn = t.idle := by
      rw [begin, waits]
      rfl
    cases m with
    | put | request | drain | close =>
      obtain rfl := Option.some.inj own
      exact .inr (.inr (busy _))
    | resume =>
      obtain rfl := Option.some.inj own
      exact .inl (.inr ⟨rfl, deadline, woken, waits⟩)
    | cancel =>
      obtain rfl := Option.some.inj own
      refine .inr (.inl ?_)
      rw [step, cancel, waits]
    | _ => contradiction

theorem traceless (failed : (ofConfig config).FailedPut before course who block)
    (split : course = mid ++ m :: after) (own : m.caller? = some who) :
    ((ofConfig config).run (before ++ mid)).Traceless
      (((ofConfig config).run (before ++ mid)).step m) who block.name := by
  obtain puts | dropped | busy := failed.own_cases split own
  · exact puts.traceless (failed.vain split puts)
  · rw [dropped]
    exact finish_traceless _ _ _ _
  · rw [busy]
    exact idle_traceless _ _ _

theorem error (failed : (ofConfig config).FailedPut before course who block)
    (split : course = mid ++ m :: after) (own : m.caller? = some who) {error : PublishError}
    (answer : (((ofConfig config).run (before ++ mid)).step m).answer = some (.error error)) :
    PutError block.name error := by
  obtain puts | dropped | busy := failed.own_cases split own
  · exact puts.error answer
  · rw [dropped] at answer
    cases answer
  · rw [busy] at answer
    cases answer

end FailedPut

/-- A put that ends in an error or is dropped while it waits leaves no trace. Whatever
its caller does from its begin to its end, the others go on with their calls as
they are, and are not woken, and so nobody is handed its block. Of the buffer only the
entries may change: in best-effort mode those that have been delivered may be swept,
where it is full for the name. -/
theorem failed_put_traceless (config : Buffer.Config) {before course : List (Move κ)}
    (failed : (ofConfig config).FailedPut before course who block) :
    ∀ mid m after, course = mid ++ m :: after → m.caller? = some who →
      let t := (ofConfig config).run (before ++ mid)
      let t' := (t.step m).traffic
      t.Traceless (t.step m) who block.name ∧
        t'.buffer = { t.buffer with entries := t'.buffer.entries } ∧
        (config.mode = .persistent → t'.buffer.entries = t.buffer.entries) ∧
        (∀ name e, (name, e) ∈ t.buffer.entries.toList →
          ¬(ofConfig config).DeliveredIn (before ++ mid) e.order →
          (name, e) ∈ t'.buffer.entries.toList) ∧
        ∀ error, (t.step m).answer = some (.error error) → PutError block.name error := by
  intro mid m after split own t t'
  have traceless : t.Traceless (t.step m) who block.name := failed.traceless split own
  have errors (error : PublishError) (answer : (t.step m).answer = some (.error error)) :
      PutError block.name error := failed.error split own answer
  obtain same | ⟨mode, -, swept⟩ := traceless.buffer
  · have same : t'.buffer = t.buffer := same
    rw [same]
    exact ⟨traceless, rfl, fun _ => rfl, fun name e listed _ => listed, errors⟩
  · have swept : t'.buffer = t.buffer.sweep := swept
    rw [swept]
    refine ⟨traceless, rfl, fun persistent => ?_, fun name e listed undelivered => ?_, errors⟩
    · rw [Buffer.bestEffort, run_config, persistent] at mode
      contradiction
    · have unread : e.deliveries = 0 := not_not.mp fun read =>
        undelivered (run_delivered config (before ++ mid) listed read)
      exact Buffer.mem_sweep.mpr ⟨listed, unread⟩

def shrunkMoves : List (Move Nat) :=
  [.put 0 (letterBlock 97), .put 1 (letterBlock 98), .request 2 (.ofName (letterBlock 97).name) 0,
    .setCapacity 1]

/-- A put of a third block sweeps the first one, waits for the second one to be taken,
and gives up. -/
theorem failed_put_traceless_shrunk :
    let start : Traffic Nat := ofConfig { capacity := 2 }
    let t := start.run shrunkMoves
    start.FailedPut shrunkMoves [.put 3 (letterBlock 99), .tick 10000, .resume 3] 3
        (letterBlock 99) ∧
      t.Traceless (t.step (.put 3 (letterBlock 99))) 3 (letterBlock 99).name ∧
      t.buffer.entries.keys = [(letterBlock 97).name, (letterBlock 98).name] ∧
      (t.step (.put 3 (letterBlock 99))).traffic.buffer.entries.keys = [(letterBlock 98).name] := by
  intro start t
  have failed : start.FailedPut shrunkMoves [.put 3 (letterBlock 99), .tick 10000, .resume 3] 3
      (letterBlock 99) := by
    refine ⟨rfl, by decide +kernel, ?_, ?_⟩
    · rintro (_ | ⟨first, _ | ⟨second, _ | ⟨third, mid⟩⟩⟩) m after split started
      · contradiction
      · obtain ⟨rfl, -⟩ := List.cons.inj split
        decide +kernel
      · obtain ⟨rfl, rest⟩ := List.cons.inj split
        obtain ⟨rfl, -⟩ := List.cons.inj rest
        decide +kernel
      · simp at split
    · refine ⟨[.put 3 (letterBlock 99), .tick 10000], .resume 3, rfl, .inr ⟨rfl, ?_⟩⟩
      exact ⟨.capacityExceeded 1 1, by decide +kernel⟩
  have accounts := failed_put_traceless { capacity := 2 } failed [] _ _ rfl rfl
  exact ⟨failed, accounts.1, by decide +kernel, by decide +kernel⟩

end NamedContent.Traffic
