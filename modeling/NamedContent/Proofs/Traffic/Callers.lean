import Mathlib
import NamedContent.Proofs.Traffic.Fate
import NamedContent.Proofs.Traffic.Room

/-!
# Callers and their puts

Only its own moves begin or end a call. A put whose caller goes on with it ends
with an answer, and then the caller is free, or it waits again for the same
block. It fails for its name only where no namespace covers that.
-/

set_option autoImplicit false

namespace NamedContent

namespace Traffic

variable {κ : Type}

def Move.caller? : Move κ → Option κ
  | .put who _ | .request who _ _ | .drain who _ | .close who | .resume who | .cancel who => some who
  | _ => none

variable [DecidableEq κ] {t : Traffic κ} {m : Move κ} {f : Effect κ} {now : Nat} {who : κ}

theorem Puts.caller {block : Block} {deadline : Nat} {kept : List (κ × Call)}
    (puts : t.Puts m who block deadline kept) : m.caller? = some who := by
  cases puts <;> rfl

theorem Drains.caller {closing : Bool} {started deadline : Nat} {kept : List (κ × Call)}
    (drains : t.Drains m who closing started deadline kept) : m.caller? = some who := by
  cases drains <;> rfl

theorem Outcome.caller_cases (outcome : t.Outcome m f) {call : Call}
    (found : (who, call) ∈ (f.traffic now).calls) :
    m.caller? = some who ∨ who ∈ t.calls.map Prod.fst := by
  rcases mem_effect_calls.mp found with old | new
  · obtain ⟨call', listed, -⟩ := mem_heard.mp old
    exact .inr (List.mem_map_of_mem (outcome.call_cases listed))
  · left
    cases outcome with
    | blocked puts =>
      cases List.mem_singleton.mp new
      exact puts.caller
    | parked => cases List.mem_singleton.mp new; rfl
    | rested drains =>
      cases List.mem_singleton.mp new
      exact drains.caller
    | closing => cases List.mem_singleton.mp new; rfl
    | _ => contradiction

theorem Outcome.free_next (outcome : t.Outcome m f) (free : t.call? who = none)
    (other : m.caller? ≠ some who) : (f.traffic now).call? who = none := by
  rw [call?_eq_none] at free ⊢
  intro listed
  obtain ⟨⟨_, call⟩, found, rfl⟩ := List.mem_map.mp listed
  obtain same | before := outcome.caller_cases found
  · exact other same
  · exact free before

theorem run_free (free : t.call? who = none) {ms : List (Move κ)}
    (others : ∀ m ∈ ms, m.caller? ≠ some who) : (t.run ms).call? who = none := by
  induction ms generalizing t with
  | nil => exact free
  | cons m rest ih =>
    refine ih ?_ fun m' mem => others m' (List.mem_cons_of_mem _ mem)
    obtain ⟨f, outcome, shows⟩ := t.step_explained m
    rw [shows.traffic]
    exact outcome.free_next free (others m List.mem_cons_self)

theorem Outcome.put_goes_on (outcome : t.Outcome m f) {block : Block} {deadline : Nat} {woken : Bool}
    (listed : (who, .put block deadline woken) ∈ t.calls) (other : m.caller? ≠ some who) :
    ∃ woken', (who, .put block deadline woken') ∈ (f.traffic now).calls := by
  obtain kept | rfl | rfl := outcome.kept_cases listed
  · exact ⟨_, mem_effect_calls.mpr
      (.inl (mem_heard.mpr ⟨_, kept, (Call.put_heard block deadline woken f.notices).symm⟩))⟩
  · exact absurd rfl other
  · exact absurd rfl other

def PutsOn (t : Traffic κ) (m : Move κ) (who : κ) (block : Block) : Prop :=
  m = .put who block ∧ t.call? who = none ∨
    m = .resume who ∧ ∃ deadline woken, t.call? who = some (.put block deadline woken)

/-- What an attempt to put comes to for its caller: it ends with an answer and leaves
the caller free, or the caller waits with the block. -/
def Settles (turn : Turn κ) (who : κ) (block : Block) : Prop :=
  turn.answer = none ∧ (∃ deadline woken, (who, .put block deadline woken) ∈ turn.traffic.calls) ∨
    turn.answer.isSome = true ∧ turn.traffic.call? who = none

theorem finish_free (free : t.call? who = none) (b : Buffer) (ns : List Notice)
    (answer : Except PublishError Answer) : (t.finish b ns answer).traffic.call? who = none := by
  rw [(t.finish_shows b ns answer).traffic, call?_eq_none]
  exact free_after rfl (call?_eq_none.mp free)

theorem finish_settles (free : t.call? who = none) (block : Block) (b : Buffer) (ns : List Notice)
    (answer : Except PublishError Answer) : Settles (t.finish b ns answer) who block :=
  .inr ⟨by rw [(t.finish_shows b ns answer).answer]; rfl, finish_free free b ns answer⟩

theorem attemptPut_settles (free : t.call? who = none) (block : Block) (deadline : Nat) :
    Settles (t.attemptPut who block deadline) who block := by
  rw [attemptPut]
  split
  · exact finish_settles free block _ _ _
  · exact finish_settles free block _ _ _
  · split
    · exact finish_settles free block _ _ _
    · exact .inl ⟨rfl, _, _, List.mem_append_right _ (List.mem_singleton.mpr rfl)⟩

theorem step_settles {block : Block} (puts : t.PutsOn m who block) :
    Settles (t.step m) who block := by
  obtain ⟨rfl, free⟩ | ⟨rfl, deadline, woken, waits⟩ := puts
  · rw [step, begin_free free]
    exact attemptPut_settles free block _
  · have left : (t.withoutCall who).call? who = none := call?_eq_none.mpr (t.not_mem_withoutCall who)
    show Settles (t.resume who) who block
    rw [resume_put waits]
    split
    · exact attemptPut_settles left block _
    · split
      · exact finish_settles left block _ _ _
      · exact .inl ⟨rfl, _, _, mem_of_call? waits⟩

theorem Outcome.namespaces (outcome : t.Outcome m f) (sound : t.Sound)
    (other : ∀ name, m ≠ .addNamespace name ∧ m ≠ .removeNamespace name) :
    f.buffer.namespaces = t.buffer.namespaces := by
  have room {b : Buffer} {block : Block} (tried : t.buffer.tryInsert block = .full b) :
      b.namespaces = t.buffer.namespaces := by
    obtain ⟨rfl, -⟩ := Buffer.tryInsert_full tried
    obtain ⟨entries, eq⟩ := t.buffer.makeRoom_eq block.name
    rw [eq]
  cases outcome with
  | @filed _ _ block _ _ _ _ _ tried =>
    obtain ⟨entries, eq⟩ := t.buffer.makeRoom_eq block.name
    rw [(filed_of_tryInsert sound tried).namespaces, eq]
  | overfull _ tried => exact room tried
  | blocked _ tried => exact room tried
  | served free phase taken =>
    obtain ⟨_, -, -, -, rfl⟩ := Buffer.take?_eq_some sound.buffer taken
    rfl
  | missed => exact (Buffer.forget_sameStore _ _).namespaces
  | gaveUp => exact (Buffer.forget_sameStore _ _).namespaces
  | cancelledRequest => exact (Buffer.forget_sameStore _ _).namespaces
  | addNamespace name => exact absurd rfl (other name).1
  | removeNamespace name => exact absurd rfl (other name).2
  | removed found =>
    obtain rfl := Buffer.remove?_eq_some found
    rfl
  | subscribed opened =>
    obtain ⟨-, rfl⟩ := Buffer.subscribe?_eq_some opened
    rfl
  | read feed =>
    obtain ⟨feeds, eq⟩ := t.buffer.readFeed_eq feed
    rw [eq]
  | unsubscribed feed => exact (Buffer.forget_sameStore t.buffer feed).namespaces
  | _ => rfl

theorem admits_of_invalid {block : Block} (puts : t.PutsOn m who block) {fault : ArgumentFault}
    (answer : (t.step m).answer = some (.error (.invalidArgument fault))) :
    t.buffer.admits block.name = false := by
  have attempted {t' : Traffic κ} {deadline : Nat} (same : t'.buffer = t.buffer)
      (answer : (t'.attemptPut who block deadline).answer =
        some (.error (.invalidArgument fault))) : t.buffer.admits block.name = false := by
    rw [attemptPut, same] at answer
    split at answer
    · rename_i error refused
      obtain ⟨-, rfl⟩ | ⟨-, outside, -⟩ := Buffer.tryInsert_refused_iff.mp refused
      · cases answer
      · exact outside
    · cases answer
    · split at answer
      · cases answer
      · cases answer
  obtain ⟨rfl, free⟩ | ⟨rfl, deadline, woken, waits⟩ := puts
  · rw [step, begin_free free] at answer
    exact attempted rfl answer
  · replace answer : (t.resume who).answer = some (.error (.invalidArgument fault)) := answer
    rw [resume_put waits] at answer
    split at answer
    · exact attempted (show (t.withoutCall who).buffer = t.buffer from rfl) answer
    · split at answer
      · cases answer
      · cases answer

end Traffic

end NamedContent
