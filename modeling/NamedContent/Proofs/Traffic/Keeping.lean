import Mathlib
import NamedContent.Proofs.Traffic.Parting

/-!
# Nothing that is sent to a request is lost

Requests are followed by their ids, from the block that is sent to them to the
answer that they return, through all orders in which puts, timers, wake-ups,
closes and the pieces of a leave can come. What a request has been sent is at
any time what it holds, or what it has returned. A block that comes after the
timer has fired still reaches the request, because it leaves the table of
waiters before it looks at its slot for the last time.
-/

set_option autoImplicit false

namespace NamedContent

inductive Departure where
  | answered (answer : Except PublishError Answer)
  | cancelled
  deriving DecidableEq

/-- The blocks that have been sent to waiting requests, and the ends of those
that have ended, each with the id of the request. -/
structure Handovers where
  sent : List (Nat × Block)
  ended : List (Nat × Departure)

namespace Parting

variable {κ : Type} [DecidableEq κ]

def sends (p : Parting κ) : Move κ → List (Nat × Block)
  | .plain m => if p.isLeaving m then [] else p.traffic.handsOut m
  | _ => []

def wakes (p : Parting κ) : Move κ → List κ
  | .plain m => if p.isLeaving m then [] else (p.traffic.stepParking m).woken
  | _ => []

def departure? (p : Parting κ) (who : κ) (how : Option Departure) : Option (Nat × Departure) :=
  match p.traffic.call? who with
  | some (.request id _ _) => how.map fun e => (id, e)
  | _ => none

def ends? (p : Parting κ) : Move κ → Option (Nat × Departure)
  | .plain (.resume who) => p.departure? who ((p.step (.plain (.resume who))).2.map .answered)
  | .plain (.cancel who) =>
    p.departure? who ((p.step (.plain (.cancel who))).2.map fun _ => .cancelled)
  | .collect who => p.departure? who ((p.step (.collect who)).2.map .answered)
  | _ => none

end Parting

namespace Handovers

variable {κ : Type} [DecidableEq κ]

def empty : Handovers := ⟨[], []⟩

def next (h : Handovers) (p : Parting κ) (m : Parting.Move κ) : Handovers :=
  ⟨h.sent ++ p.sends m, h.ended ++ (p.ends? m).toList⟩

def through (h : Handovers) (p : Parting κ) : List (Parting.Move κ) → Handovers
  | [] => h
  | m :: rest => (h.next p m).through (p.step m).1 rest

theorem ended_through {h : Handovers} {last : Nat × Departure} (found : last ∈ h.ended)
    (p : Parting κ) (ms : List (Parting.Move κ)) : last ∈ (h.through p ms).ended := by
  induction ms generalizing h p with
  | nil => exact found
  | cons m rest ih => exact ih (List.mem_append_left _ found) _

end Handovers

namespace Traffic

variable {κ : Type} [DecidableEq κ] {t : Traffic κ} {m : Move κ}

theorem handsOut_eq_nil (other : t.putBlock? m = none) : t.handsOut m = [] := by
  have nothing : t.inserts? m = none := by
    rw [inserts?]
    split
    · exact other
    · rfl
  rw [handsOut, nothing]
  rfl

end Traffic

namespace Parting

variable {κ : Type} [DecidableEq κ] {p : Parting κ} {h : Handovers} {m : Traffic.Move κ} {who : κ}
  {id deadline : Nat} {slot : Slot}

/-- What has been sent to requests is what they hold or have returned. -/
structure Kept (p : Parting κ) (h : Handovers) : Prop where
  sound : p.traffic.Sound
  awaited : p.traffic.Awaited
  leaving : ∀ who stage, p.leave who = some stage → ∃ id deadline slot,
    (who, .request id deadline slot) ∈ p.traffic.calls ∧
      (stage = .withdrawn → p.traffic.buffer.Gone id)
  waiting : ∀ who id deadline slot, (who, .request id deadline slot) ∈ p.traffic.calls →
    (slot ≠ .empty → p.traffic.buffer.Gone id) ∧
      ∀ block, (id, block) ∈ h.sent ↔ slot = .handed block
  issued : ∀ id block, (id, block) ∈ h.sent → id < p.traffic.buffer.nextId
  carried : ∀ id block, (id, block) ∈ h.sent → (∃ e, (id, e) ∈ h.ended) ∨
    ∃ who deadline slot, (who, .request id deadline slot) ∈ p.traffic.calls
  ended : ∀ id e, (id, e) ∈ h.ended → p.traffic.buffer.Gone id ∧
    (∀ who deadline slot, (who, .request id deadline slot) ∉ p.traffic.calls) ∧
      ∀ a, e = .answered a → ∀ block, (id, block) ∈ h.sent ↔ a = .ok (.block block)
  once : (h.ended.map Prod.fst).Nodup

omit [DecidableEq κ] in
theorem ofConfig_kept (config : Buffer.Config) : (ofConfig config : Parting κ).Kept .empty where
  sound := Traffic.ofConfig_sound config
  awaited := nofun
  leaving := nofun
  waiting := nofun
  issued := nofun
  carried := nofun
  ended := nofun
  once := List.nodup_nil

omit [DecidableEq κ] in
theorem Kept.forget (kept : p.Kept h) (id : Nat) :
    Kept { p with traffic := { p.traffic with buffer := p.traffic.buffer.forget id } } h where
  sound := {
    buffer := Buffer.forget_consistent kept.sound.buffer id
    callers := kept.sound.callers
    issued := by
      show ∀ who' id' deadline' slot', _ → id' < (p.traffic.buffer.forget id).nextId
      rw [Buffer.forget_nextId]
      exact kept.sound.issued
    alone := kept.sound.alone }
  awaited := fun w hw once => kept.awaited w (Buffer.mem_forget_pending.mp hw).1 once
  leaving := by
    intro who stage found
    obtain ⟨id', deadline', slot', there, gone⟩ := kept.leaving who stage found
    exact ⟨id', deadline', slot', there, fun out => (gone out).forget_other id⟩
  waiting := by
    intro who id' deadline' slot' found
    obtain ⟨gone, held⟩ := kept.waiting who id' deadline' slot' found
    exact ⟨fun filled => (gone filled).forget_other id, held⟩
  issued := by
    intro id' block sent
    show id' < (p.traffic.buffer.forget id).nextId
    rw [Buffer.forget_nextId]
    exact kept.issued id' block sent
  carried := kept.carried
  ended := by
    intro id' e found
    obtain ⟨gone, absent, said⟩ := kept.ended id' e found
    exact ⟨gone.forget_other id, absent, said⟩
  once := kept.once

theorem Kept.enter (kept : p.Kept h)
    (waits : p.traffic.call? who = some (.request id deadline slot)) (stage : Leave)
    (out : stage = .withdrawn → p.traffic.buffer.Gone id) :
    Kept { p with leave := Function.update p.leave who (some stage) } h where
  sound := kept.sound
  awaited := kept.awaited
  leaving := by
    intro who' stage' found
    by_cases same : who' = who
    · subst same
      obtain rfl : stage = stage' := by simpa using found
      exact ⟨id, deadline, slot, Traffic.mem_of_call? waits, out⟩
    · exact kept.leaving who' stage' (by simpa [same] using found)
  waiting := kept.waiting
  issued := kept.issued
  carried := kept.carried
  ended := kept.ended
  once := kept.once

theorem Kept.depart (kept : p.Kept h)
    (waits : p.traffic.call? who = some (.request id deadline slot)) {e : Departure}
    (honest : ∀ a, e = .answered a → ∀ block, slot = .handed block ↔ a = .ok (.block block)) :
    Kept ⟨p.traffic.departed who id, Function.update p.leave who none⟩
      ⟨h.sent, h.ended ++ [(id, e)]⟩ := by
  have listed := Traffic.mem_of_call? waits
  have turn := Traffic.cancel_request waits
  obtain ⟨f, outcome, shows⟩ := p.traffic.step_explained (.cancel who)
  have trade := outcome.trade shows.answer
  have same : p.traffic.departed who id = f.traffic _ := turn ▸ shows.traffic
  have narrowed := kept.forget id
  have before {who' : κ} {call : Call} (found : (who', call) ∈ (p.traffic.departed who id).calls) :
      (who', call) ∈ p.traffic.calls := List.mem_of_mem_filter found
  have other {who' : κ} {call : Call} (found : (who', call) ∈ p.traffic.calls) (ne : who' ≠ who) :
      (who', call) ∈ (p.traffic.departed who id).calls :=
    List.mem_filter.mpr ⟨found, by simpa using ne⟩
  exact {
    sound := by
      have after := Traffic.step_sound kept.sound (.cancel who)
      rwa [turn] at after
    awaited := by
      show (p.traffic.departed who id).Awaited
      rw [same]
      exact outcome.awaited trade kept.sound kept.awaited
    leaving := by
      intro who' stage found
      have ne : who' ≠ who := by
        rintro rfl
        simp at found
      obtain ⟨id', deadline', slot', there, gone⟩ :=
        narrowed.leaving who' stage (by simpa [ne] using found)
      exact ⟨id', deadline', slot', other there ne, gone⟩
    waiting := fun who' id' deadline' slot' found =>
      narrowed.waiting who' id' deadline' slot' (before found)
    issued := narrowed.issued
    carried := by
      intro id' block sent
      obtain ⟨e', done⟩ | ⟨who', deadline', slot', there⟩ := kept.carried id' block sent
      · exact .inl ⟨e', List.mem_append_left _ done⟩
      · by_cases ne : who' = who
        · subst ne
          cases kept.sound.call_unique there listed
          exact .inl ⟨e, List.mem_append_right _ (List.mem_singleton.mpr rfl)⟩
        · exact .inr ⟨who', deadline', slot', other there ne⟩
    ended := by
      intro id' e' found
      rcases List.mem_append.mp found with old | new
      · obtain ⟨gone, absent, said⟩ := narrowed.ended id' e' old
        exact ⟨gone, fun w d s there => absent w d s (before there), said⟩
      · obtain ⟨rfl, rfl⟩ := Prod.mk.inj (List.mem_singleton.mp new)
        refine ⟨Buffer.gone_of_forget (kept.sound.issued _ _ _ _ listed),
          kept.sound.left waits, ?_⟩
        intro a answered block
        exact ((kept.waiting _ _ _ _ listed).2 block).trans (honest a answered block)
    once := by
      rw [List.map_append]
      refine kept.once.append (List.nodup_singleton _) ?_
      intro id' old new
      obtain ⟨⟨_, e'⟩, found, rfl⟩ := List.mem_map.mp old
      obtain rfl : _ = id := List.mem_singleton.mp new
      exact (kept.ended _ e' found).2.1 _ _ _ listed }

theorem Kept.pass (kept : p.Kept h)
    (spared : ∀ who, m = .resume who ∨ m = .cancel who → ∀ id deadline slot,
      p.traffic.call? who ≠ some (.request id deadline slot)) :
    Kept { p with traffic := (p.traffic.stepParking m).traffic }
      ⟨h.sent ++ p.traffic.handsOut m, h.ended⟩ := by
  obtain ⟨f, outcome, trade, shows⟩ := p.traffic.stepParking_explained m
  rw [shows.traffic]
  have nextId := (outcome.change kept.sound.buffer).nextId_le kept.sound.buffer
  have goes_on {who : κ} {id deadline : Nat} {slot : Slot}
      (listed : (who, .request id deadline slot) ∈ p.traffic.calls) : ∃ slot',
        (who, .request id deadline slot') ∈ (f.traffic (p.traffic.now + m.duration)).calls := by
    refine (outcome.request_on listed).resolve_right fun move => ?_
    exact spared who move _ _ _ (kept.sound.call?_eq_some.mpr listed)
  have taker {id : Nat} {block : Block} (sent : (id, block) ∈ p.traffic.handsOut m) :=
    trade.taker kept.sound kept.awaited sent (p.traffic.now + m.duration)
  exact {
    sound := outcome.sound kept.sound _
    awaited := outcome.awaited trade kept.sound kept.awaited
    leaving := by
      intro who stage found
      obtain ⟨id, deadline, slot, listed, gone⟩ := kept.leaving who stage found
      obtain ⟨slot', there⟩ := goes_on listed
      exact ⟨id, deadline, slot', there, fun out => outcome.gone kept.sound (gone out)⟩
    waiting := by
      intro who id deadline slot found
      obtain ⟨old, listed, how, holds⟩ | ⟨rfl, rfl, unsent⟩ :=
        outcome.slot_next trade kept.sound kept.awaited found
      · obtain ⟨gone, sent⟩ := kept.waiting who id deadline old listed
        refine ⟨fun filled => ?_, fun block => ?_⟩
        · obtain rfl | out := how
          · exact outcome.gone kept.sound (gone filled)
          · exact out
        · rw [List.mem_append, sent block, holds block]
      · refine ⟨absurd rfl, fun block => ⟨fun sent => ?_, nofun⟩⟩
        rcases List.mem_append.mp sent with old | new
        · exact absurd (kept.issued _ block old) (Nat.lt_irrefl _)
        · exact absurd new (unsent block)
    issued := by
      intro id block sent
      rcases List.mem_append.mp sent with old | new
      · exact (kept.issued id block old).trans_le nextId
      · obtain ⟨who, deadline, listed, -⟩ := taker new
        exact (kept.sound.issued _ _ _ _ listed).trans_le nextId
    carried := by
      intro id block sent
      rcases List.mem_append.mp sent with old | new
      · obtain done | ⟨who, deadline, slot, listed⟩ := kept.carried id block old
        · exact .inl done
        · obtain ⟨slot', there⟩ := goes_on listed
          exact .inr ⟨who, deadline, slot', there⟩
      · obtain ⟨who, deadline, -, there⟩ := taker new
        exact .inr ⟨who, deadline, _, there⟩
    ended := by
      intro id e found
      obtain ⟨gone, absent, said⟩ := kept.ended id e found
      refine ⟨outcome.gone kept.sound gone, ?_, ?_⟩
      · intro who deadline slot there
        obtain ⟨slot', old⟩ | ⟨fresh, -⟩ := outcome.request_cases there
        · exact absent who deadline slot' old
        · exact gone.1.ne fresh
      · intro a answered block
        rw [List.mem_append, ← said a answered block]
        -- whoever is sent a block now has a call, and this id has none any more
        refine or_iff_left fun new => ?_
        obtain ⟨who, deadline, listed, -⟩ := taker new
        exact absent who deadline _ listed
    once := kept.once }

theorem departure?_eq (waits : p.traffic.call? who = some (.request id deadline slot))
    (how : Option Departure) : p.departure? who how = how.map fun e => (id, e) := by
  rw [departure?, waits]

theorem departure?_none (other : ∀ id deadline slot, p.traffic.call? who ≠
    some (.request id deadline slot)) (how : Option Departure) : p.departure? who how = none := by
  rw [departure?]
  split
  · rename_i waits
    exact absurd waits (other _ _ _)
  · rfl

theorem ends?_none {m : Move κ} (unanswered : (p.step m).2 = none) : p.ends? m = none := by
  have nothing (who : κ) : p.departure? who none = none := by
    rw [departure?]
    split <;> rfl
  unfold ends?
  split
  · rw [unanswered]
    exact nothing _
  · rw [unanswered]
    exact nothing _
  · rw [unanswered]
    exact nothing _
  · rfl

theorem next_of_rests {m : Move κ} (held : ∀ m', m = .plain m' → p.isLeaving m' = true)
    (unanswered : (p.step m).2 = none) : h.next p m = h := by
  have sends : p.sends m = [] := by
    cases m with
    | plain m => rw [Parting.sends, if_pos (held m rfl)]
    | _ => rfl
  rw [Handovers.next, sends, ends?_none unanswered, List.append_nil]
  exact congrArg _ (List.append_nil _)

theorem leave_of_stays (stays : p.isLeaving m = false) (own : m.caller? = some who) :
    Function.update p.leave who none = p.leave := by
  rw [isLeaving, own] at stays
  exact Function.update_eq_self_iff.mpr (Eq.symm (by simpa using stays))

theorem Kept.resume (kept : p.Kept h) (stays : p.isLeaving (.resume who) = false)
    (waits : p.traffic.call? who = some (.request id deadline slot)) :
    (p.step (.plain (.resume who))).1.Kept (h.next p (.plain (.resume who))) := by
  have turn := Traffic.resume_request_eq waits
    (kept.waiting _ _ _ _ (Traffic.mem_of_call? waits)).1
  have unsent : p.sends (.plain (.resume who)) = [] := by
    rw [sends, stays]
    exact Traffic.handsOut_eq_nil (Traffic.resume_request waits).1
  have moved : p.step (.plain (.resume who)) =
      ({ p with traffic := (p.traffic.step (.resume who)).traffic },
        (p.traffic.step (.resume who)).answer) := by
    rw [step, stays]
    rfl
  rw [Handovers.next, unsent, ends?, departure?_eq waits, moved, turn, List.append_nil]
  split
  · have gone := kept.depart (e := .answered slot.answer) waits (by
      rintro _ ⟨⟩ block
      cases slot <;> simp [Slot.answer])
    rwa [leave_of_stays stays rfl] at gone
  · show p.Kept ⟨h.sent, h.ended ++ []⟩
    rwa [List.append_nil]

theorem Kept.cancel (kept : p.Kept h) (stays : p.isLeaving (.cancel who) = false)
    (waits : p.traffic.call? who = some (.request id deadline slot)) :
    (p.step (.plain (.cancel who))).1.Kept (h.next p (.plain (.cancel who))) := by
  have unsent : p.sends (.plain (.cancel who)) = [] := by
    rw [sends, stays]
    exact Traffic.handsOut_eq_nil rfl
  have moved : p.step (.plain (.cancel who)) =
      ({ p with traffic := (p.traffic.step (.cancel who)).traffic },
        (p.traffic.step (.cancel who)).answer) := by
    rw [step, stays]
    rfl
  rw [Handovers.next, unsent, ends?, departure?_eq waits, moved, Traffic.cancel_request waits,
    List.append_nil]
  have gone := kept.depart (e := .cancelled) waits (by rintro _ ⟨⟩)
  rwa [leave_of_stays stays rfl] at gone

theorem Kept.step (kept : p.Kept h) (m : Move κ) : (p.step m).1.Kept (h.next p m) := by
  have comes := p.step_comes m
  generalize turn : p.step m = turn' at comes
  cases comes with
  | rests held =>
    rwa [next_of_rests held (by rw [turn])]
  | fires waits =>
    simpa [Handovers.next, sends, ends?] using kept.enter waits .fired nofun
  | withdraws waits =>
    have issued := kept.sound.issued _ _ _ _ (Traffic.mem_of_call? waits)
    have out := (kept.forget _).enter waits .withdrawn fun _ => Buffer.gone_of_forget issued
    simpa [Handovers.next, sends, ends?] using out
  | @collects who id deadline slot waits withdrawn =>
    obtain ⟨id', deadline', slot', listed, out⟩ := kept.leaving who _ withdrawn
    cases kept.sound.call_unique listed (Traffic.mem_of_call? waits)
    have gone := kept.depart (e := .answered slot.lastAnswer) waits (by
      rintro _ ⟨⟩ block
      cases slot <;> simp [Slot.lastAnswer])
    rw [p.traffic.departed_of_gone who (out rfl)] at gone
    rw [Handovers.next, ends?, departure?_eq waits, turn]
    show Kept _ ⟨h.sent ++ [], _⟩
    rwa [List.append_nil]
  | @moves m stays =>
    by_cases own : ∃ who, (m = .resume who ∨ m = .cancel who) ∧
        ∃ id deadline slot, p.traffic.call? who = some (.request id deadline slot)
    · obtain ⟨who, rfl | rfl, id, deadline, slot, waits⟩ := own
      · exact turn ▸ kept.resume stays waits
      · exact turn ▸ kept.cancel stays waits
    · have spared : ∀ who, m = .resume who ∨ m = .cancel who → ∀ id deadline slot,
          p.traffic.call? who ≠ some (.request id deadline slot) :=
        fun who move id deadline slot waits => own ⟨who, move, id, deadline, slot, waits⟩
      have unended : p.ends? (.plain m) = none := by
        cases m with
        | resume who => exact departure?_none (spared who (.inl rfl)) _
        | cancel who => exact departure?_none (spared who (.inr rfl)) _
        | _ => rfl
      have sent : p.sends (.plain m) = p.traffic.handsOut m := by
        rw [sends, stays]
        rfl
      rw [Handovers.next, unended, sent]
      show Kept _ ⟨_, h.ended ++ []⟩
      rw [List.append_nil]
      exact kept.pass spared

theorem Kept.run (kept : p.Kept h) (ms : List (Move κ)) : (p.run ms).Kept (h.through p ms) := by
  induction ms generalizing p h with
  | nil => exact kept
  | cons m rest ih => exact ih (kept.step m)

theorem step_collect (waits : p.traffic.call? who = some (.request id deadline slot))
    (withdrawn : p.leave who = some .withdrawn) :
    (p.step (.collect who)).2 = some slot.lastAnswer := by
  simp only [step, waits, withdrawn]

theorem Kept.returns (kept : p.Kept h) {block : Block}
    (holds : (who, .request id deadline (.handed block)) ∈ p.traffic.calls) :
    (id, .answered (.ok (.block block))) ∈
      (h.through p [.plain (.resume who), .withdraw who, .collect who]).ended := by
  have waits := kept.sound.call?_eq_some.mpr holds
  have collected {p : Parting κ} (h : Handovers)
      (waits : p.traffic.call? who = some (.request id deadline (.handed block)))
      (withdrawn : p.leave who = some .withdrawn) :
      (id, .answered (.ok (.block block))) ∈ (h.next p (.collect who)).ended := by
    refine List.mem_append_right _ ?_
    rw [ends?, departure?_eq waits, step_collect waits withdrawn]
    exact List.mem_singleton.mpr rfl
  have through_cons (m : Move κ) (rest : List (Move κ)) :
      h.through p (m :: rest) = (h.next p m).through (p.step m).1 rest := rfl
  cases stage : p.leave who with
  | none =>
    have stays : p.isLeaving (.resume who) = false := by
      show (p.leave who).isSome = false
      rw [stage]
      rfl
    have turn := Traffic.resume_request_eq waits (kept.waiting _ _ _ _ holds).1
    rw [if_pos (.inl Slot.noConfusion)] at turn
    have answer : (p.step (.plain (.resume who))).2 = some (.ok (.block block)) := by
      rw [Parting.step, stays]
      exact congrArg Traffic.Turn.answer turn
    rw [through_cons]
    refine Handovers.ended_through (List.mem_append_right _ ?_) _ _
    rw [ends?, departure?_eq waits, answer]
    exact List.mem_singleton.mpr rfl
  | some stage' =>
    have held : p.isLeaving (.resume who) = true := by
      show (p.leave who).isSome = true
      rw [stage]
      rfl
    have blocked : p.step (.plain (.resume who)) = (p, none) := by
      rw [Parting.step, if_pos held]
    have same : h.next p (.plain (.resume who)) = h :=
      next_of_rests (fun _ eq => Move.plain.inj eq ▸ held) (by rw [blocked])
    rw [through_cons, same, blocked, through_cons]
    cases stage' with
    | fired =>
      have withdrawn : p.step (.withdraw who) =
          (⟨{ p.traffic with buffer := p.traffic.buffer.forget id },
            Function.update p.leave who (some .withdrawn)⟩, none) := by
        simp only [Parting.step, waits, stage]
      rw [withdrawn]
      exact collected _ waits (Function.update_self who _ p.leave)
    | withdrawn =>
      have rests : p.step (.withdraw who) = (p, none) := by
        simp only [Parting.step, waits, stage]
      rw [rests]
      exact collected _ waits stage

theorem Kept.sends (kept : p.Kept h) {m : Move κ} {block : Block}
    (sent : (id, block) ∈ p.sends m) : ∃ who deadline,
      (who, .request id deadline .empty) ∈ p.traffic.calls ∧
      (who, .request id deadline (.handed block)) ∈ (p.step m).1.traffic.calls ∧
      who ∈ p.wakes m := by
  cases m with
  | plain m =>
    cases leaving : p.isLeaving m with
    | true =>
      rw [Parting.sends, if_pos leaving] at sent
      contradiction
    | false =>
      rw [Parting.sends, leaving] at sent
      rw [Parting.step, wakes, leaving]
      obtain same | ⟨_, _, rfl, -⟩ := p.traffic.stepParking_cases m
      · rw [same]
        exact kept.awaited.handsOut kept.sound sent
      · -- a request puts nothing
        rw [if_neg Bool.false_ne_true, Traffic.handsOut_eq_nil rfl] at sent
        contradiction
  | fire | withdraw | collect => contradiction

/-- However the moves of a run are ordered, nothing that is sent to a waiting
request is lost. A block is sent only to a call in progress, which has it after
the move and is woken. From then on it holds the block until it ends, its own
next moves are enough for that, and unless it is cancelled it returns just this
block. A request ends once, returns no block that was not sent to it, and where it
returns without one it was sent none, is out of the table and out of the
matcher, and all that stays so whatever happens later. -/
theorem handover_returned (config : Buffer.Config) (ms : List (Move κ)) :
    let start : Parting κ := ofConfig config
    let p := start.run ms
    let h := Handovers.empty.through start ms
    (∀ m id block, (id, block) ∈ p.sends m → ∃ who deadline,
      (who, .request id deadline .empty) ∈ p.traffic.calls ∧
      (who, .request id deadline (.handed block)) ∈ (p.step m).1.traffic.calls ∧
      who ∈ p.wakes m) ∧
    (∀ id block, (id, block) ∈ h.sent →
      (id, .answered (.ok (.block block))) ∈ h.ended ∨ (id, .cancelled) ∈ h.ended ∨
      ∃ who deadline, (who, .request id deadline (.handed block)) ∈ p.traffic.calls ∧
        (id, .answered (.ok (.block block))) ∈
          (h.through p [.plain (.resume who), .withdraw who, .collect who]).ended) ∧
    (h.ended.map Prod.fst).Nodup ∧
    (∀ id block, (id, .answered (.ok (.block block))) ∈ h.ended → (id, block) ∈ h.sent) ∧
    ∀ id, (id, .answered (.ok .nothing)) ∈ h.ended → ∀ rest,
      (∀ block, (id, block) ∉ (h.through p rest).sent) ∧
      (∀ w ∈ (p.run rest).traffic.buffer.pending, w.id ≠ id) ∧
      ∀ name, id ∉ (p.run rest).traffic.buffer.matcher.matching name := by
  intro start p h
  have kept : p.Kept h := (ofConfig_kept config).run ms
  refine ⟨fun m id block => kept.sends, ?_, kept.once, ?_, ?_⟩
  · intro id block sent
    obtain ⟨e, ended⟩ | ⟨who, deadline, slot, listed⟩ := kept.carried id block sent
    · cases e with
      | cancelled => exact .inr (.inl ended)
      | answered a =>
        obtain rfl := ((kept.ended id _ ended).2.2 a rfl block).mp sent
        exact .inl ended
    · obtain rfl := ((kept.waiting _ _ _ _ listed).2 block).mp sent
      exact .inr (.inr ⟨who, deadline, listed, kept.returns listed⟩)
  · exact fun id block ended => ((kept.ended id _ ended).2.2 _ rfl block).mpr rfl
  · intro id ended rest
    have later := kept.run rest
    obtain ⟨gone, -, said⟩ := later.ended id _ (Handovers.ended_through ended p rest)
    refine ⟨fun block sent => ?_, gone.2, gone.unmatched later.sound.buffer⟩
    cases (said _ rfl block).mp sent

open Traffic (letterBlock)

/-- Two requests run out of time. The first is sent its block after its timer
has fired, and the second is out of the table before its block is put. -/
def lateMoves : List (Move Nat) :=
  [.plain (.request 1 (.ofName (letterBlock 97).name) 5), .plain (.tick 5), .fire 1,
    .plain (.put 0 (letterBlock 97)), .withdraw 1, .collect 1,
    .plain (.request 2 (.ofName (letterBlock 98).name) 0), .fire 2, .withdraw 2,
    .plain (.put 0 (letterBlock 98)), .collect 2]

/-- The first request has its block as soon as that is put, and returns it. The
second returns nothing, and nothing is ever sent to it. -/
theorem handover_returned_late :
    let start : Parting Nat := ofConfig {}
    let fired := start.run (lateMoves.take 3)
    let p := start.run lateMoves
    let h := Handovers.empty.through start lateMoves
    (∃ who deadline, (who, .request 0 deadline (.handed (letterBlock 97))) ∈
      (fired.step (.plain (.put 0 (letterBlock 97)))).1.traffic.calls) ∧
    h.sent = [(0, letterBlock 97)] ∧ (0, .answered (.ok (.block (letterBlock 97)))) ∈ h.ended ∧
    ∀ rest, (∀ block, (1, block) ∉ (h.through p rest).sent) ∧
      ∀ w ∈ (p.run rest).traffic.buffer.pending, w.id ≠ 1 := by
  intro start fired p h
  have handed : (0, letterBlock 97) ∈ fired.sends (.plain (.put 0 (letterBlock 97))) := by
    decide +kernel
  have sent : h.sent = [(0, letterBlock 97)] := by decide +kernel
  have first : (0, letterBlock 97) ∈ h.sent := sent ▸ List.mem_singleton.mpr rfl
  have second : (1, .answered (.ok .nothing)) ∈ h.ended := by decide +kernel
  have uncancelled : (0, .cancelled) ∉ h.ended := by decide +kernel
  have unheld : ∀ who deadline,
      (who, .request 0 deadline (.handed (letterBlock 97))) ∉
        ((ofConfig {} : Parting Nat).run lateMoves).traffic.calls := by
    have idle : ((ofConfig {} : Parting Nat).run lateMoves).traffic.calls = [] := by decide +kernel
    rw [idle]
    nofun
  obtain ⟨takes, -⟩ := handover_returned {} (lateMoves.take 3)
  obtain ⟨-, returns, -, -, nothing⟩ := handover_returned {} lateMoves
  obtain ⟨who, deadline, -, there, -⟩ := takes _ 0 _ handed
  refine ⟨⟨who, deadline, there⟩, sent, ?_, fun rest => ?_⟩
  · obtain block | cancelled | ⟨who, deadline, listed, -⟩ := returns 0 _ first
    · exact block
    · exact absurd cancelled uncancelled
    · exact absurd listed (unheld who deadline)
  · obtain ⟨unsent, gone, -⟩ := nothing 1 second rest
    exact ⟨unsent, gone⟩

end Parting

end NamedContent
