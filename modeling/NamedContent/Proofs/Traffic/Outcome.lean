import Mathlib
import NamedContent.Traffic.Step

/-!
# All that can come of a move

A move drops or keeps the call of its caller, changes the buffer, passes
notices on to the calls that are kept, and may begin one wait. The cases are
listed here with what each requires. Whatever a step preserves is proved from
this list.
-/

set_option autoImplicit false

namespace NamedContent

def Call.heard (c : Call) : List Notice → Call
  | [] => c
  | n :: rest => ((c.hear? n).getD c).heard rest

namespace Traffic

variable {κ : Type}

def heard (ns : List Notice) (calls : List (κ × Call)) : List (κ × Call) :=
  calls.map fun c => (c.1, c.2.heard ns)

/-- What a move does: the calls that it keeps, the new buffer, the notices for
those calls, the wait that begins, and the answer. -/
structure Effect (κ : Type) where
  kept : List (κ × Call)
  buffer : Buffer
  notices : List Notice
  added : List (κ × Call)
  answer : Option (Except PublishError Answer)

def Effect.traffic (f : Effect κ) (now : Nat) : Traffic κ :=
  ⟨f.buffer, now, heard f.notices f.kept ++ f.added⟩

def Move.duration : Move κ → Nat
  | .tick ms => ms
  | _ => 0

def report (t : Traffic κ) (started : Nat) : DrainReport :=
  ⟨t.buffer.unclaimed, t.buffer.unclaimed ≠ 0, t.now - started⟩

def closeAnswer (t : Traffic κ) (r : DrainReport) : Except PublishError Answer :=
  if r.timedOut && t.buffer.config.strictDrain then
    .error (.timeout (.ofMillis t.buffer.config.drainTimeout))
  else .ok (.report r)

variable [DecidableEq κ]

/-- The move makes an attempt to put the block, at the begin of the put or after a notice. -/
inductive Puts (t : Traffic κ) : Move κ → κ → Block → Nat → List (κ × Call) → Prop where
  | begun {who : κ} {block : Block} (free : t.call? who = none) :
      Puts t (.put who block) who block (t.now + t.buffer.config.putTimeout) t.calls
  | resumed {who : κ} {block : Block} {deadline : Nat}
      (waits : t.call? who = some (.put block deadline true)) :
      Puts t (.resume who) who block deadline (t.withoutCall who).calls

inductive Drains (t : Traffic κ) : Move κ → κ → Bool → Nat → Nat → List (κ × Call) → Prop where
  | begun {who : κ} {timeout : Nat} (free : t.call? who = none) :
      Drains t (.drain who timeout) who false t.now (t.now + timeout) t.calls
  | resumed {who : κ} {closing woken : Bool} {started deadline : Nat}
      (waits : t.call? who = some (.drain closing started deadline woken))
      (due : woken = true ∨ deadline ≤ t.now) :
      Drains t (.resume who) who closing started deadline (t.withoutCall who).calls

inductive Outcome (t : Traffic κ) : Move κ → Effect κ → Prop where
  | idle (m : Move κ) : Outcome t m ⟨t.calls, t.buffer, [], [], none⟩
  | tick (ms : Nat) : Outcome t (.tick ms) ⟨t.calls, t.buffer, [], [], some (.ok .done)⟩
  | refused {m : Move κ} {who : κ} {block : Block} {deadline : Nat} {kept : List (κ × Call)}
      {error : PublishError} (puts : t.Puts m who block deadline kept)
      (tried : t.buffer.tryInsert block = .refused error) :
      Outcome t m ⟨kept, t.buffer, [], [], some (.error error)⟩
  | filed {m : Move κ} {who : κ} {block : Block} {deadline : Nat} {kept : List (κ × Call)}
      {b : Buffer} {ns : List Notice} (puts : t.Puts m who block deadline kept)
      (tried : t.buffer.tryInsert block = .filed b ns) :
      Outcome t m ⟨kept, b, ns, [], some (.ok (.block block))⟩
  | overfull {m : Move κ} {who : κ} {block : Block} {deadline : Nat} {kept : List (κ × Call)}
      {b : Buffer} (puts : t.Puts m who block deadline kept)
      (tried : t.buffer.tryInsert block = .full b)
      (ends : b.config.overflow = .fail ∨ deadline ≤ t.now) :
      Outcome t m ⟨kept, b, [], [], some (capacityExceeded b)⟩
  | blocked {m : Move κ} {who : κ} {block : Block} {deadline : Nat} {kept : List (κ × Call)}
      {b : Buffer} (puts : t.Puts m who block deadline kept)
      (tried : t.buffer.tryInsert block = .full b)
      (goes_on : ¬(b.config.overflow = .fail ∨ deadline ≤ t.now)) :
      Outcome t m ⟨kept, b, [], [(who, .put block deadline false)], none⟩
  | expired {who : κ} {block : Block} {deadline : Nat}
      (waits : t.call? who = some (.put block deadline false)) (late : deadline ≤ t.now) :
      Outcome t (.resume who)
        ⟨(t.withoutCall who).calls, t.buffer, [], [], some (capacityExceeded t.buffer)⟩
  | denied {who : κ} {interest : Interest} {timeout : Nat} (free : t.call? who = none)
      (phase : t.buffer.phase = .closed) :
      Outcome t (.request who interest timeout)
        ⟨t.calls, t.buffer, [], [], some (.error .closedBuffer)⟩
  | served {who : κ} {interest : Interest} {timeout : Nat} {block : Block} {b : Buffer}
      (free : t.call? who = none) (phase : t.buffer.phase ≠ .closed)
      (taken : t.buffer.take? interest = some (block, b)) :
      Outcome t (.request who interest timeout)
        ⟨t.calls, b, b.deliveryNotices, [], some (.ok (.block block))⟩
  | missed {who : κ} {interest : Interest} (free : t.call? who = none)
      (phase : t.buffer.phase ≠ .closed) (nothing : t.buffer.take? interest = none) :
      Outcome t (.request who interest 0)
        ⟨t.calls, (t.buffer.enroll interest .once).forget t.buffer.nextId, [], [],
          some (.ok .nothing)⟩
  | parked {who : κ} {interest : Interest} {timeout : Nat} (free : t.call? who = none)
      (phase : t.buffer.phase ≠ .closed) (nothing : t.buffer.take? interest = none) :
      Outcome t (.request who interest timeout)
        ⟨t.calls, t.buffer.enroll interest .once, [],
          [(who, .request t.buffer.nextId (t.now + timeout) .empty)], none⟩
  | fetched {who : κ} {id deadline : Nat} {block : Block}
      (waits : t.call? who = some (.request id deadline (.handed block))) :
      Outcome t (.resume who)
        ⟨(t.withoutCall who).calls, t.buffer, [], [], some (.ok (.block block))⟩
  | released {who : κ} {id deadline : Nat}
      (waits : t.call? who = some (.request id deadline .released)) :
      Outcome t (.resume who)
        ⟨(t.withoutCall who).calls, t.buffer, [], [], some (.error .closedBuffer)⟩
  | gaveUp {who : κ} {id deadline : Nat}
      (waits : t.call? who = some (.request id deadline .empty)) (late : deadline ≤ t.now) :
      Outcome t (.resume who)
        ⟨(t.withoutCall who).calls, t.buffer.forget id, [], [], some (.ok .nothing)⟩
  | cancelledRequest {who : κ} {id deadline : Nat} {slot : Slot}
      (waits : t.call? who = some (.request id deadline slot)) :
      Outcome t (.cancel who)
        ⟨(t.withoutCall who).calls, t.buffer.forget id, [], [], some (.ok .done)⟩
  | cancelled {who : κ}
      (other : ∀ id deadline slot, t.call? who ≠ some (.request id deadline slot)) :
      Outcome t (.cancel who) ⟨(t.withoutCall who).calls, t.buffer, [], [], some (.ok .done)⟩
  | rested {m : Move κ} {who : κ} {closing : Bool} {started deadline : Nat}
      {kept : List (κ × Call)} (drains : t.Drains m who closing started deadline kept)
      (goes_on : ¬(t.buffer.unclaimed = 0 ∨ deadline ≤ t.now)) :
      Outcome t m ⟨kept, t.buffer, [], [(who, .drain closing started deadline false)], none⟩
  | reported {m : Move κ} {who : κ} {started deadline : Nat} {kept : List (κ × Call)}
      (drains : t.Drains m who false started deadline kept)
      (ends : t.buffer.unclaimed = 0 ∨ deadline ≤ t.now) :
      Outcome t m ⟨kept, t.buffer, [], [], some (.ok (.report (t.report started)))⟩
  | ended {m : Move κ} {who : κ} {started deadline : Nat} {kept : List (κ × Call)}
      (drains : t.Drains m who true started deadline kept)
      (ends : t.buffer.unclaimed = 0 ∨ deadline ≤ t.now) :
      Outcome t m ⟨kept, t.buffer.shut, t.buffer.shutNotices, [],
        some (t.closeAnswer (t.report started))⟩
  | closedAgain {who : κ} (free : t.call? who = none) (phase : t.buffer.phase = .closed) :
      Outcome t (.close who) ⟨t.calls, t.buffer, [], [], some (.ok (.report default))⟩
  | closing {who : κ} (free : t.call? who = none) (phase : t.buffer.phase ≠ .closed)
      (mode : t.buffer.bestEffort = true)
      (goes_on : ¬(t.buffer.unclaimed = 0 ∨ t.now + t.buffer.config.drainTimeout ≤ t.now)) :
      Outcome t (.close who) ⟨t.calls, t.buffer.beginDrain, [.space],
        [(who, .drain true t.now (t.now + t.buffer.config.drainTimeout) false)], none⟩
  | closed {who : κ} (free : t.call? who = none) (phase : t.buffer.phase ≠ .closed)
      (mode : t.buffer.bestEffort = true)
      (ends : t.buffer.unclaimed = 0 ∨ t.now + t.buffer.config.drainTimeout ≤ t.now) :
      Outcome t (.close who) ⟨t.calls, t.buffer.beginDrain.shut, .space :: t.buffer.shutNotices, [],
        some (t.closeAnswer (t.report t.now))⟩
  | closedPersistent {who : κ} (free : t.call? who = none) (phase : t.buffer.phase ≠ .closed)
      (mode : t.buffer.bestEffort = false) :
      Outcome t (.close who) ⟨t.calls, t.buffer.beginDrain.shut, .space :: t.buffer.shutNotices, [],
        some (t.closeAnswer ⟨t.buffer.unclaimed, false, 0⟩)⟩
  | setCapacity (n : Nat) : Outcome t (.setCapacity n)
      ⟨t.calls, { t.buffer with capacity := n }, [.space], [], some (.ok .done)⟩
  | addNamespace (name : Name) : Outcome t (.addNamespace name)
      ⟨t.calls, t.buffer.addNamespace name, [], [], some (.ok .done)⟩
  | removeNamespace (name : Name) : Outcome t (.removeNamespace name)
      ⟨t.calls, (t.buffer.removeNamespace name).1, [], [],
        some (.ok (.flag (t.buffer.removeNamespace name).2))⟩
  | clear : Outcome t .clear
      ⟨t.calls, t.buffer.clear, Buffer.removalNotices, [], some (.ok (.count t.buffer.size))⟩
  | removedNothing {name : Name} (absent : t.buffer.remove? name = none) :
      Outcome t (.remove name) ⟨t.calls, t.buffer, [], [], some (.ok .nothing)⟩
  | removed {name : Name} {block : Block} {b : Buffer}
      (found : t.buffer.remove? name = some (block, b)) :
      Outcome t (.remove name)
        ⟨t.calls, b, Buffer.removalNotices, [], some (.ok (.block block))⟩
  | unsubscribable {interest : Interest} {limit : Option Nat}
      (refused : t.buffer.subscribe? interest limit = none) :
      Outcome t (.subscribe interest limit)
        ⟨t.calls, t.buffer, [], [], some (.error .closedBuffer)⟩
  | subscribed {interest : Interest} {limit : Option Nat} {b : Buffer}
      (opened : t.buffer.subscribe? interest limit = some b) :
      Outcome t (.subscribe interest limit)
        ⟨t.calls, b, [], [], some (.ok (.registered t.buffer.nextId))⟩
  | read (feed : Nat) : Outcome t (.read feed)
      ⟨t.calls, (t.buffer.readFeed feed).1, [], [],
        some (.ok (.reading (t.buffer.readFeed feed).2))⟩
  | unsubscribed (feed : Nat) : Outcome t (.unsubscribe feed)
      ⟨t.calls, t.buffer.dropFeed feed, [], [], some (.ok .done)⟩

structure Turn.Shows (turn : Turn κ) (f : Effect κ) (now : Nat) : Prop where
  traffic : turn.traffic = f.traffic now
  answer : turn.answer = f.answer

omit [DecidableEq κ] in
theorem heard_nil (calls : List (κ × Call)) : heard [] calls = calls := by
  simp [heard, Call.heard]

omit [DecidableEq κ] in
theorem hearAll_eq (t : Traffic κ) (ns : List Notice) :
    (t.hearAll ns).1 = { t with calls := heard ns t.calls } := by
  induction ns generalizing t with
  | nil =>
    rw [heard_nil]
    rfl
  | cons n rest ih =>
    show ((t.hear n).1.hearAll rest).1 = _
    rw [ih]
    simp [hear, heard, Call.heard, Function.comp_def]

omit [DecidableEq κ] in
theorem finish_shows (t : Traffic κ) (b : Buffer) (ns : List Notice)
    (answer : Except PublishError Answer) :
    (t.finish b ns answer).Shows ⟨t.calls, b, ns, [], some answer⟩ t.now := by
  constructor
  · show ({ t with buffer := b }.hearAll ns).1 = _
    rw [hearAll_eq, Effect.traffic, List.append_nil]
  · rfl

omit [DecidableEq κ] in
theorem wait_shows (t : Traffic κ) (who : κ) (call : Call) :
    (t.wait who call).Shows ⟨t.calls, t.buffer, [], [(who, call)], none⟩ t.now := by
  constructor
  · rw [Effect.traffic, heard_nil]
    rfl
  · rfl

omit [DecidableEq κ] in
theorem idle_shows (t : Traffic κ) : t.idle.Shows ⟨t.calls, t.buffer, [], [], none⟩ t.now := by
  constructor
  · rw [Effect.traffic, heard_nil, List.append_nil]
    rfl
  · rfl

/-- Some outcome of the move is what the turn shows. -/
def Explained (t : Traffic κ) (m : Move κ) (turn : Turn κ) : Prop :=
  ∃ f, t.Outcome m f ∧ turn.Shows f (t.now + m.duration)

theorem begin_explained {t : Traffic κ} {m : Move κ} {who : κ} {turn : Turn κ}
    (timeless : m.duration = 0) (begun : t.call? who = none → t.Explained m turn) :
    t.Explained m (t.begin who turn) := by
  unfold begin
  cases call : t.call? who with
  | none => exact begun call
  | some c =>
    refine ⟨_, .idle m, ?_⟩
    rw [timeless]
    exact t.idle_shows

theorem begin_free {t : Traffic κ} {who : κ} (free : t.call? who = none) (turn : Turn κ) :
    t.begin who turn = turn := by
  rw [begin, free]
  rfl

section Request

variable {t : Traffic κ} {who : κ} {interest : Interest} (free : t.call? who = none)
  (going : t.buffer.phase ≠ .closed) (timeout : Nat)
include free going

theorem step_request_taken {block : Block} {b : Buffer}
    (taken : t.buffer.take? interest = some (block, b)) :
    t.step (.request who interest timeout) =
      t.finish b b.deliveryNotices (.ok (.block block)) := by
  rw [step, begin_free free, beginRequest, Buffer.request, if_neg going, taken]

theorem step_request_missed (nothing : t.buffer.take? interest = none) :
    t.step (.request who interest timeout) =
      if timeout = 0 then
        t.finish ((t.buffer.enroll interest .once).forget t.buffer.nextId) [] (.ok .nothing)
      else ({ t with buffer := t.buffer.enroll interest .once } : Traffic κ).wait who
        (.request t.buffer.nextId (t.now + timeout) .empty) := by
  rw [step, begin_free free, beginRequest, Buffer.request, if_neg going, nothing]

end Request

theorem attemptPut_explained {t : Traffic κ} {m : Move κ} {who : κ} {block : Block}
    {deadline : Nat} {kept : List (κ × Call)} (timeless : m.duration = 0)
    (puts : t.Puts m who block deadline kept) :
    t.Explained m (({ t with calls := kept } : Traffic κ).attemptPut who block deadline) := by
  rw [Explained, timeless]
  unfold attemptPut
  split
  · rename_i error tried
    exact ⟨_, .refused puts tried, finish_shows _ _ _ _⟩
  · rename_i b ns tried
    exact ⟨_, .filed puts tried, finish_shows _ _ _ _⟩
  · rename_i b tried
    split
    · rename_i ends
      exact ⟨_, .overfull puts tried ends, finish_shows _ _ _ _⟩
    · rename_i goes_on
      exact ⟨_, .blocked puts tried goes_on, wait_shows _ _ _⟩

theorem beginRequest_explained {t : Traffic κ} {who : κ} {interest : Interest} {timeout : Nat}
    (free : t.call? who = none) :
    t.Explained (.request who interest timeout) (t.beginRequest who interest timeout) := by
  unfold beginRequest Buffer.request
  by_cases phase : t.buffer.phase = .closed
  · simp only [if_pos phase]
    exact ⟨_, .denied free phase, finish_shows _ _ _ _⟩
  · simp only [if_neg phase]
    cases taken : t.buffer.take? interest with
    | some found => exact ⟨_, .served free phase taken, finish_shows _ _ _ _⟩
    | none =>
      by_cases patient : timeout = 0
      · subst patient
        simp only [if_true]
        exact ⟨_, .missed free phase taken, finish_shows _ _ _ _⟩
      · simp only [if_neg patient]
        exact ⟨_, .parked free phase taken, wait_shows _ _ _⟩

theorem attemptDrain_explained {t : Traffic κ} {m : Move κ} {who : κ} {closing : Bool}
    {started deadline : Nat} {kept : List (κ × Call)} (timeless : m.duration = 0)
    (drains : t.Drains m who closing started deadline kept) :
    t.Explained m
      (({ t with calls := kept } : Traffic κ).attemptDrain who closing started deadline) := by
  rw [Explained, timeless]
  unfold attemptDrain
  dsimp only
  split
  · rename_i ends
    cases closing with
    | false =>
      refine ⟨_, .reported drains ends, ?_⟩
      simp only [endDrain, Bool.false_eq_true, if_false]
      exact finish_shows _ _ _ _
    | true =>
      refine ⟨_, .ended drains ends, ?_⟩
      simp only [endDrain, if_true, endClose]
      exact finish_shows _ _ _ _
  · rename_i goes_on
    exact ⟨_, .rested drains goes_on, wait_shows _ _ _⟩

omit [DecidableEq κ] in
theorem heard_append (ns more : List Notice) (calls : List (κ × Call)) :
    heard more (heard ns calls) = heard (ns ++ more) calls := by
  have each (c : Call) : (c.heard ns).heard more = c.heard (ns ++ more) := by
    induction ns generalizing c with
    | nil => rfl
    | cons n rest ih => exact ih _
  simp [heard, each]

theorem beginClose_explained {t : Traffic κ} {who : κ} (free : t.call? who = none) :
    t.Explained (.close who) (t.beginClose who) := by
  have told : ({ t with buffer := t.buffer.beginDrain } : Traffic κ).hearAll [.space] =
      (⟨t.buffer.beginDrain, t.now, heard [.space] t.calls⟩,
        ({ t with buffer := t.buffer.beginDrain } : Traffic κ).hearAll [.space] |>.2) := by
    apply Prod.ext
    · exact hearAll_eq _ _
    · rfl
  have mode : t.buffer.beginDrain.bestEffort = t.buffer.bestEffort := rfl
  have shuts (answer : Except PublishError Answer) (woken : List κ) :
      ({ finish ⟨t.buffer.beginDrain, t.now, heard [.space] t.calls⟩ t.buffer.beginDrain.shut
          t.buffer.beginDrain.shutNotices answer with woken } : Turn κ).Shows
        ⟨t.calls, t.buffer.beginDrain.shut, .space :: t.buffer.shutNotices, [], some answer⟩
        t.now := by
    obtain ⟨traffic, answered⟩ := finish_shows
      (⟨t.buffer.beginDrain, t.now, heard [.space] t.calls⟩ : Traffic κ)
      t.buffer.beginDrain.shut t.buffer.beginDrain.shutNotices answer
    refine ⟨traffic.trans ?_, answered⟩
    simp only [Effect.traffic, heard_append]
    rfl
  unfold beginClose
  by_cases phase : t.buffer.phase = .closed
  · rw [if_pos phase]
    exact ⟨_, .closedAgain free phase, finish_shows _ _ _ _⟩
  · rw [if_neg phase, told]
    dsimp only
    cases best : t.buffer.bestEffort with
    | false =>
      rw [mode, best, if_neg Bool.false_ne_true]
      exact ⟨_, .closedPersistent free phase best, shuts _ _⟩
    | true =>
      rw [mode, best, if_pos rfl]
      unfold attemptDrain
      dsimp only
      split
      · rename_i ends
        exact ⟨_, .closed free phase best ends, shuts _ _⟩
      · rename_i goes_on
        exact ⟨_, .closing free phase best goes_on, rfl, rfl⟩

theorem resume_explained (t : Traffic κ) (who : κ) :
    t.Explained (.resume who) (t.resume who) := by
  unfold resume
  dsimp only
  cases waits : t.call? who with
  | none => exact ⟨_, .idle _, t.idle_shows⟩
  | some call =>
    cases call with
    | put block deadline woken =>
      cases woken with
      | true => exact attemptPut_explained rfl (.resumed waits)
      | false =>
        by_cases late : deadline ≤ t.now
        · simp only [Bool.false_eq_true, if_false, if_pos late]
          exact ⟨_, .expired waits late, finish_shows _ _ _ _⟩
        · simp only [Bool.false_eq_true, if_false, if_neg late]
          exact ⟨_, .idle _, t.idle_shows⟩
    | request id deadline slot =>
      cases slot with
      | handed block => exact ⟨_, .fetched waits, finish_shows _ _ _ _⟩
      | released => exact ⟨_, .released waits, finish_shows _ _ _ _⟩
      | empty =>
        by_cases late : deadline ≤ t.now
        · simp only [if_pos late]
          exact ⟨_, .gaveUp waits late, finish_shows _ _ _ _⟩
        · simp only [if_neg late]
          exact ⟨_, .idle _, t.idle_shows⟩
    | drain closing started deadline woken =>
      by_cases due : woken = true ∨ deadline ≤ t.now
      · simp only [if_pos due]
        exact attemptDrain_explained rfl (.resumed waits due)
      · simp only [if_neg due]
        exact ⟨_, .idle _, t.idle_shows⟩

theorem cancel_explained (t : Traffic κ) (who : κ) :
    t.Explained (.cancel who) (t.cancel who) := by
  unfold cancel
  dsimp only
  split
  · rename_i id deadline slot waits
    exact ⟨_, .cancelledRequest waits, finish_shows _ _ _ _⟩
  · rename_i other
    exact ⟨_, .cancelled other, finish_shows _ _ _ _⟩

theorem step_explained (t : Traffic κ) (m : Move κ) : t.Explained m (t.step m) := by
  cases m with
  | put who block =>
    exact begin_explained rfl fun free => attemptPut_explained rfl (.begun free)
  | request who interest timeout =>
    exact begin_explained rfl fun free => beginRequest_explained free
  | drain who timeout =>
    exact begin_explained rfl fun free => attemptDrain_explained rfl (.begun free)
  | close who => exact begin_explained rfl fun free => beginClose_explained free
  | resume who => exact t.resume_explained who
  | cancel who => exact t.cancel_explained who
  | tick ms =>
    refine ⟨_, .tick ms, ?_, rfl⟩
    rw [Effect.traffic, heard_nil, List.append_nil]
    rfl
  | setCapacity n =>
    refine ⟨_, .setCapacity n, ?_⟩
    simp only [step]
    exact finish_shows _ _ _ _
  | addNamespace name =>
    refine ⟨_, .addNamespace name, ?_⟩
    simp only [step]
    exact finish_shows _ _ _ _
  | removeNamespace name =>
    refine ⟨_, .removeNamespace name, ?_⟩
    simp only [step]
    exact finish_shows _ _ _ _
  | clear =>
    refine ⟨_, .clear, ?_⟩
    simp only [step]
    exact finish_shows _ _ _ _
  | remove name =>
    cases found : t.buffer.remove? name with
    | none =>
      refine ⟨_, .removedNothing found, ?_⟩
      simp only [step, found]
      exact finish_shows _ _ _ _
    | some taken =>
      refine ⟨_, .removed found, ?_⟩
      simp only [step, found]
      exact finish_shows _ _ _ _
  | subscribe interest limit =>
    cases opened : t.buffer.subscribe? interest limit with
    | none =>
      refine ⟨_, .unsubscribable opened, ?_⟩
      simp only [step, opened]
      exact finish_shows _ _ _ _
    | some b =>
      refine ⟨_, .subscribed opened, ?_⟩
      simp only [step, opened]
      exact finish_shows _ _ _ _
  | read feed =>
    refine ⟨_, .read feed, ?_⟩
    simp only [step]
    exact finish_shows _ _ _ _
  | unsubscribe feed =>
    refine ⟨_, .unsubscribed feed, ?_⟩
    simp only [step]
    exact finish_shows _ _ _ _

end Traffic

end NamedContent
