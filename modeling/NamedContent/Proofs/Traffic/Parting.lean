import Mathlib
import NamedContent.Proofs.Traffic.Callers
import NamedContent.Proofs.Traffic.Handover

/-!
# Requests on their way out

A waiting request that runs out of time leaves in three pieces: its timer
fires, it takes itself out of the table of waiters, and it looks at its slot
once more. Others may move between the pieces, and until the second of them a
put may still hand it a block. Here each piece is a move of its own, and a
request parks even with no time to wait. Where nobody moves in between, the
pieces are the one move of the traffic, so every run of the traffic is one of
these runs.
-/

set_option autoImplicit false

namespace NamedContent

namespace Buffer

variable {b b' : Buffer} {id : Nat}

theorem request_eq_parked {interest : Interest} (parked : b.request interest = .parked b' id) :
    b.phase ≠ .closed ∧ b.take? interest = none ∧ b' = b.enroll interest .once ∧
      id = b.nextId := by
  rw [request] at parked
  split at parked
  · cases parked
  · rename_i going
    split at parked
    · cases parked
    · rename_i nothing
      cases parked
      exact ⟨going, nothing, rfl, rfl⟩

theorem Gone.forget (gone : b.Gone id) : b.forget id = b := by
  rw [Buffer.forget, gone.waiter?]

theorem gone_of_forget (issued : id < b.nextId) : (b.forget id).Gone id :=
  ⟨by rwa [forget_nextId], fun _ hw => (mem_forget_pending.mp hw).2⟩

theorem Gone.forget_other (gone : b.Gone id) (other : Nat) : (b.forget other).Gone id :=
  ⟨by rw [forget_nextId]; exact gone.1, fun w hw => gone.2 w (mem_forget_pending.mp hw).1⟩

theorem Gone.unmatched (gone : b.Gone id) (h : b.Consistent) (name : Name) :
    id ∉ b.matcher.matching name := by
  intro found
  obtain ⟨pattern, -, holds⟩ := Matcher.mem_matching.mp found
  obtain ⟨w, hw, same, -⟩ := (h.held pattern id).mp holds
  exact gone.2 w hw same

end Buffer

def Slot.answer : Slot → Except PublishError Answer
  | .empty => .ok .nothing
  | .handed block => .ok (.block block)
  | .released => .error .closedBuffer

def Slot.lastAnswer : Slot → Except PublishError Answer
  | .handed block => .ok (.block block)
  | _ => .ok .nothing

namespace Traffic

variable {κ : Type} [DecidableEq κ] {t : Traffic κ} {m : Move κ} {who : κ} {id deadline : Nat}
  {slot : Slot}

def park (t : Traffic κ) (who : κ) (interest : Interest) (timeout : Nat) : Turn κ :=
  match t.buffer.request interest with
  | .parked buffer id => { t with buffer }.wait who (.request id (t.now + timeout) .empty)
  | _ => t.beginRequest who interest timeout

/-- A step in which every request that finds nothing parks. -/
def stepParking (t : Traffic κ) : Move κ → Turn κ
  | .request who interest timeout => t.begin who (t.park who interest timeout)
  | m => t.step m

def parkedAtOnce (t : Traffic κ) (who : κ) (interest : Interest) : Traffic κ :=
  ⟨t.buffer.enroll interest .once, t.now,
    t.calls ++ [(who, .request t.buffer.nextId t.now .empty)]⟩

theorem stepParking_cases (t : Traffic κ) (m : Move κ) : t.stepParking m = t.step m ∨
    ∃ who interest, m = .request who interest 0 ∧ t.call? who = none ∧
      t.buffer.phase ≠ .closed ∧ t.buffer.take? interest = none ∧
      t.stepParking m = ⟨t.parkedAtOnce who interest, [], none⟩ := by
  cases m with
  | request who interest timeout =>
    by_cases free : t.call? who = none
    · cases received : t.buffer.request interest with
      | refused | served =>
        left
        rw [stepParking, step, park, received]
      | parked b id =>
        obtain ⟨going, nothing, rfl, rfl⟩ := Buffer.request_eq_parked received
        have parks : t.stepParking (.request who interest timeout) =
            ({ t with buffer := t.buffer.enroll interest .once } : Traffic κ).wait who
              (.request t.buffer.nextId (t.now + timeout) .empty) := by
          rw [stepParking, begin_free free, park, received]
        by_cases hurried : timeout = 0
        · subst hurried
          exact .inr ⟨who, interest, rfl, free, going, nothing, parks⟩
        · left
          rw [parks, step_request_missed free going timeout nothing, if_neg hurried]
    · left
      have busy := Option.isSome_iff_ne_none.mpr free
      rw [stepParking, step, begin, begin, if_pos busy, if_pos busy]
  | _ => exact .inl rfl

theorem stepParking_explained (t : Traffic κ) (m : Move κ) :
    ∃ f, t.Outcome m f ∧ t.Trade m f ∧ (t.stepParking m).Shows f (t.now + m.duration) := by
  obtain same | ⟨who, interest, rfl, free, going, nothing, parks⟩ := t.stepParking_cases m
  · obtain ⟨f, outcome, shows⟩ := t.step_explained m
    exact ⟨f, outcome, outcome.trade shows.answer, same ▸ shows⟩
  · have answer : (t.step (.request who interest 0)).answer = some (.ok .nothing) := by
      rw [step_request_missed free going 0 nothing, if_pos rfl]
      rfl
    refine ⟨_, .parked free going nothing,
      .neither (t.buffer.enroll_calm _ _) ?_ ?_, ?_⟩
    · rw [inserts?, answer]
      rfl
    · rw [returns?, answer]
    · rw [parks]
      exact wait_shows ({ t with buffer := t.buffer.enroll interest .once } : Traffic κ) who _

theorem resume_parkedAtOnce (free : t.call? who = none) {interest : Interest}
    (going : t.buffer.phase ≠ .closed) (nothing : t.buffer.take? interest = none) :
    (t.parkedAtOnce who interest).resume who = t.step (.request who interest 0) := by
  have others : ∀ c ∈ t.calls, c.1 ≠ who := by
    intro c listed same
    exact call?_eq_none.mp free (List.mem_map.mpr ⟨c, listed, same⟩)
  have waits : (t.parkedAtOnce who interest).call? who =
      some (.request t.buffer.nextId t.now .empty) := by
    rw [call?, parkedAtOnce, List.find?_append, List.find?_eq_none.mpr (by simpa using others)]
    simp
  have left : ((t.parkedAtOnce who interest).withoutCall who) =
      { t with buffer := t.buffer.enroll interest .once } := by
    rw [withoutCall, parkedAtOnce]
    congr 1
    rw [List.filter_append, List.filter_eq_self.mpr (by simpa using others)]
    simp
  rw [step_request_missed free going 0 nothing, if_pos rfl, resume, waits, left]
  simp only [parkedAtOnce, le_refl, if_true]
  rfl

def departed (t : Traffic κ) (who : κ) (id : Nat) : Traffic κ :=
  { t.withoutCall who with buffer := t.buffer.forget id }

theorem departed_of_gone (t : Traffic κ) (who : κ) (gone : t.buffer.Gone id) :
    t.departed who id = t.withoutCall who := by
  rw [departed, gone.forget]
  rfl

theorem cancel_request (waits : t.call? who = some (.request id deadline slot)) :
    t.step (.cancel who) = ⟨t.departed who id, [], some (.ok .done)⟩ := by
  show t.cancel who = _
  rw [cancel, waits]
  rfl

theorem resume_request_eq (waits : t.call? who = some (.request id deadline slot))
    (gone : slot ≠ .empty → t.buffer.Gone id) : t.step (.resume who) =
      if slot ≠ .empty ∨ deadline ≤ t.now then ⟨t.departed who id, [], some slot.answer⟩
      else t.idle := by
  have left (filled : slot ≠ .empty) := t.departed_of_gone who (gone filled)
  show t.resume who = _
  rw [resume, waits]
  cases slot with
  | empty =>
    by_cases late : deadline ≤ t.now
    · simp only [if_pos late, if_pos (Or.inr late)]
      rfl
    · simp only [if_neg late, ne_eq, not_true_eq_false, false_or]
  | handed | released =>
    rw [if_pos (.inl Slot.noConfusion), left Slot.noConfusion]
    rfl

end Traffic

inductive Leave where
  /-- Its timer has fired while its slot was empty. -/
  | fired
  /-- It is out of the table of waiters and will look at its slot once more. -/
  | withdrawn
  deriving DecidableEq

/-- Traffic in which requests leave piece by piece. -/
structure Parting (κ : Type) where
  traffic : Traffic κ
  leave : κ → Option Leave

namespace Parting

inductive Move (κ : Type) where
  | plain (m : Traffic.Move κ)
  | fire (who : κ)
  | withdraw (who : κ)
  | collect (who : κ)

variable {κ : Type} [DecidableEq κ]

def ofConfig (config : Buffer.Config) : Parting κ := ⟨.ofConfig config, fun _ => none⟩

/-- The caller of the move is on its way out, where nothing can stop it or make it wait. -/
def isLeaving (p : Parting κ) (m : Traffic.Move κ) : Bool := (m.caller?.bind p.leave).isSome

def step (p : Parting κ) : Move κ → Parting κ × Option (Except PublishError Answer)
  | .plain m =>
    if p.isLeaving m then (p, none)
    else ({ p with traffic := (p.traffic.stepParking m).traffic }, (p.traffic.stepParking m).answer)
  | .fire who =>
    match p.traffic.call? who, p.leave who with
    | some (.request _ deadline .empty), none =>
      if deadline ≤ p.traffic.now then
        ({ p with leave := Function.update p.leave who (some .fired) }, none)
      else (p, none)
    | _, _ => (p, none)
  | .withdraw who =>
    match p.traffic.call? who, p.leave who with
    | some (.request id _ _), some .fired =>
      (⟨{ p.traffic with buffer := p.traffic.buffer.forget id },
        Function.update p.leave who (some .withdrawn)⟩, none)
    | _, _ => (p, none)
  | .collect who =>
    match p.traffic.call? who, p.leave who with
    | some (.request _ _ slot), some .withdrawn =>
      (⟨p.traffic.withoutCall who, Function.update p.leave who none⟩,
        some slot.lastAnswer)
    | _, _ => (p, none)

def run (p : Parting κ) : List (Move κ) → Parting κ
  | [] => p
  | m :: rest => (p.step m).1.run rest

variable {p : Parting κ} {m : Move κ} {who : κ} {id deadline : Nat} {slot : Slot}

inductive Comes (p : Parting κ) : Move κ → Parting κ × Option (Except PublishError Answer) → Prop
  | rests {m : Move κ} (held : ∀ m', m = .plain m' → p.isLeaving m' = true) : Comes p m (p, none)
  | moves {m : Traffic.Move κ} (stays : p.isLeaving m = false) : Comes p (.plain m)
      ({ p with traffic := (p.traffic.stepParking m).traffic }, (p.traffic.stepParking m).answer)
  | fires {who : κ} {id deadline : Nat}
      (waits : p.traffic.call? who = some (.request id deadline .empty))
      (stays : p.leave who = none) (late : deadline ≤ p.traffic.now) :
      Comes p (.fire who) ({ p with leave := Function.update p.leave who (some .fired) }, none)
  | withdraws {who : κ} {id deadline : Nat} {slot : Slot}
      (waits : p.traffic.call? who = some (.request id deadline slot))
      (fired : p.leave who = some .fired) : Comes p (.withdraw who)
        (⟨{ p.traffic with buffer := p.traffic.buffer.forget id },
          Function.update p.leave who (some .withdrawn)⟩, none)
  | collects {who : κ} {id deadline : Nat} {slot : Slot}
      (waits : p.traffic.call? who = some (.request id deadline slot))
      (withdrawn : p.leave who = some .withdrawn) : Comes p (.collect who)
        (⟨p.traffic.withoutCall who, Function.update p.leave who none⟩,
          some slot.lastAnswer)

theorem step_comes (p : Parting κ) (m : Move κ) : p.Comes m (p.step m) := by
  cases m with
  | plain m =>
    rw [step]
    split
    · rename_i held
      exact .rests fun _ same => Move.plain.inj same ▸ held
    · rename_i stays
      exact .moves (Bool.eq_false_iff.mpr stays)
  | fire who =>
    rw [step]
    split
    · rename_i id deadline waits stays
      split
      · rename_i late
        exact .fires waits stays late
      · exact .rests nofun
    · exact .rests nofun
  | withdraw who =>
    rw [step]
    split
    · rename_i id deadline slot waits fired
      exact .withdraws waits fired
    · exact .rests nofun
  | collect who =>
    rw [step]
    split
    · rename_i id deadline slot waits withdrawn
      exact .collects waits withdrawn
    · exact .rests nofun

/-- Where nobody comes in between, the three pieces are the one move that ends the request. -/
theorem resume_in_pieces (waits : p.traffic.call? who = some (.request id deadline .empty))
    (stays : p.leave who = none) (late : deadline ≤ p.traffic.now) :
    (p.run [.fire who, .withdraw who]).step (.collect who) = p.step (.plain (.resume who)) := by
  have moves : p.isLeaving (.resume who) = false := by
    show (p.leave who).isSome = false
    rw [stays]
    rfl
  have resumed : p.traffic.stepParking (.resume who) =
      ⟨p.traffic.departed who id, [], some (.ok .nothing)⟩ := by
    show p.traffic.step (.resume who) = _
    rw [Traffic.resume_request_eq waits (absurd rfl), if_pos (.inr late)]
    rfl
  have narrowed : ({ p.traffic with buffer := p.traffic.buffer.forget id } : Traffic κ).call? who =
      some (.request id deadline .empty) := waits
  have back : Function.update p.leave who none = p.leave :=
    Function.update_eq_self_iff.mpr stays.symm
  rw [step, moves, resumed]
  simp only [run, step, waits, stays, if_pos late, Function.update_self, narrowed,
    Function.update_idem, back]
  rfl

/-- Every run of the traffic is a run in which no request is interrupted on its way out. -/
theorem run_covers (t : Traffic κ) (ms : List (Traffic.Move κ)) :
    ∃ pieces, (⟨t, fun _ => none⟩ : Parting κ).run pieces = ⟨t.run ms, fun _ => none⟩ := by
  have plain (t : Traffic κ) (m : Traffic.Move κ) :
      ((⟨t, fun _ => none⟩ : Parting κ).step (.plain m)).1 =
        ⟨(t.stepParking m).traffic, fun _ => none⟩ := by
    have stays : (⟨t, fun _ => none⟩ : Parting κ).isLeaving m = false := by
      rw [isLeaving]
      cases m.caller? <;> rfl
    rw [step, stays]
    rfl
  induction ms generalizing t with
  | nil => exact ⟨[], rfl⟩
  | cons m rest ih =>
    obtain ⟨pieces, covers⟩ := ih (t.step m).traffic
    obtain same | ⟨who, interest, rfl, free, going, nothing, parks⟩ := t.stepParking_cases m
    · refine ⟨.plain m :: pieces, ?_⟩
      rw [run, plain, same]
      exact covers
    · refine ⟨.plain (.request who interest 0) :: .plain (.resume who) :: pieces, ?_⟩
      have resumed : ((t.parkedAtOnce who interest).stepParking (.resume who)) =
          t.step (.request who interest 0) :=
        t.resume_parkedAtOnce free going nothing
      rw [run, plain, parks, run, plain, resumed]
      exact covers

end Parting

end NamedContent
