import Mathlib
import NamedContent.Proofs.Traffic.Callers
import NamedContent.Proofs.Traffic.Progress

/-!
# Callers that only ask

A caller that does nothing but request, and goes on with its request, is answered with
blocks that it has asked for, whatever others do meanwhile.
-/

set_option autoImplicit false

namespace NamedContent

namespace Traffic

variable {κ : Type} [DecidableEq κ] {t : Traffic κ} {m : Move κ} {ms : List (Move κ)}
  {a : Account κ} {who : κ} {interest : Interest} {block : Block}

/-- What the caller has asked for last is this, and it has no call but a request. -/
structure Asks (t : Traffic κ) (a : Account κ) (who : κ) (interest : Interest) : Prop where
  asked : a.asked who = some interest
  request : ∀ call, (who, call) ∈ t.calls → ∃ id deadline slot, call = .request id deadline slot

omit [DecidableEq κ] in
theorem request_of_fresh {old call : Call} (same : old.fresh = call.fresh)
    (request : ∃ id deadline slot, old = .request id deadline slot) :
    ∃ id deadline slot, call = .request id deadline slot := by
  obtain ⟨id, deadline, slot, rfl⟩ := request
  cases call with
  | request id' deadline' slot' => exact ⟨id', deadline', slot', rfl⟩
  | put => cases same
  | drain => cases same

theorem Asks.step (h : t.Asks a who interest)
    (waits : m.caller? = some who → m = .resume who) :
    (t.step m).traffic.Asks (a.next t m) who interest where
  asked := by
    rw [← h.asked]
    cases m with
    | request who' interest' timeout =>
      have other : who ≠ who' := by
        rintro rfl
        cases waits rfl
      show a.askedAfter t (.request who' interest' timeout) who = a.asked who
      rw [Account.askedAfter]
      split
      · rfl
      · exact Function.update_of_ne other _ _
    | _ => rfl
  request := by
    intro call listed
    obtain ⟨f, outcome, shows⟩ := t.step_explained m
    rw [shows.traffic] at listed
    obtain ⟨old, before, same⟩ | ⟨timeout, begins⟩ := outcome.call_from listed
    · exact request_of_fresh same (h.request old before)
    · cases begins with
      | request => exact ⟨_, _, _, rfl⟩
      | put => cases waits rfl
      | drain => cases waits rfl
      | close => cases waits rfl

theorem asks_request (sound : t.Sound) (free : t.call? who = none) (timeout : Nat) :
    (t.step (.request who interest timeout)).traffic.Asks
      (a.next t (.request who interest timeout)) who interest where
  asked := by
    show a.askedAfter t (.request who interest timeout) who = _
    exact askedAfter_request free
  request := by
    intro call listed
    obtain ⟨f, outcome, shows⟩ := t.step_explained (.request who interest timeout)
    rw [shows.traffic] at listed
    obtain ⟨old, before, -⟩ | ⟨_, begins⟩ := outcome.call_from listed
    · rw [sound.call?_eq_some.mpr before] at free
      contradiction
    · cases begins
      exact ⟨_, _, _, rfl⟩

theorem accepts_of_returns (sound : t.Sound) (balanced : t.Balanced a)
    (asked : a.askedAfter t m who = some interest) (returns : t.returns? m = some (who, block)) :
    interest.accepts block.name = true := by
  obtain ⟨f, outcome, shows⟩ := t.step_explained m
  obtain ⟨interest', _, same, -, -, accepts⟩ :=
    (outcome.trade shows.answer).backed sound balanced returns
  rw [asked] at same
  cases same
  exact accepts

theorem accepts_of_request (sound : t.Sound) (balanced : t.Balanced a)
    (free : t.call? who = none) {timeout : Nat}
    (answer : (t.step (.request who interest timeout)).answer = some (.ok (.block block))) :
    interest.accepts block.name = true := by
  have returns : t.returns? (.request who interest timeout) = some (who, block) := by
    rw [returns?, answer]
    rfl
  exact accepts_of_returns sound balanced (askedAfter_request free) returns

theorem Asks.accepts (h : t.Asks a who interest) (sound : t.Sound) (balanced : t.Balanced a)
    (answer : (t.step (.resume who)).answer = some (.ok (.block block))) :
    interest.accepts block.name = true := by
  have returns : t.returns? (.resume who) = some (who, block) := by
    cases waits : t.call? who with
    | none =>
      have idle : (t.step (.resume who)).answer = none := by
        show (t.resume who).answer = none
        rw [resume, waits]
        rfl
      rw [idle] at answer
      contradiction
    | some call =>
      obtain ⟨id, deadline, slot, rfl⟩ := h.request call (mem_of_call? waits)
      rw [returns?, answer]
      simp only [(resume_request waits).2, Option.map_some]
  have asked : a.askedAfter t (.resume who) who = some interest := h.asked
  exact accepts_of_returns sound balanced asked returns

theorem Asks.run (h : t.Asks a who interest) (others : ∀ m ∈ ms, m.caller? ≠ some who) :
    (t.run ms).Asks (a.through t ms) who interest := by
  induction ms generalizing t a with
  | nil => exact h
  | cons m rest ih =>
    have first : (t.step m).traffic.Asks (a.next t m) who interest :=
      h.step fun own => absurd own (others m List.mem_cons_self)
    exact ih first fun m' mem => others m' (List.mem_cons_of_mem _ mem)

theorem Balanced.step (h : t.Balanced a) (sound : t.Sound) (m : Move κ) :
    (t.step m).traffic.Balanced (a.next t m) := by
  obtain ⟨f, outcome, shows⟩ := t.step_explained m
  rw [shows.traffic]
  exact outcome.balanced (outcome.trade shows.answer) sound h shows.traffic

theorem Balanced.run (h : t.Balanced a) (sound : t.Sound) (ms : List (Move κ)) :
    (t.run ms).Balanced (a.through t ms) := by
  induction ms generalizing t a with
  | nil => exact h
  | cons m rest ih => exact ih (h.step sound m) (step_sound sound m)

end Traffic

end NamedContent
