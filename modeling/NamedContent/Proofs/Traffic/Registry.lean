import Mathlib
import NamedContent.Proofs.Buffer.Filters
import NamedContent.Proofs.Traffic.Fate

/-!
# The registry through all traffic

The table of waiters is compared with what callers know: which of them have a
request in progress, and which filters are open with how much received. A
request waits without a block exactly as long as the table has its id, and an
open filter is in the table until it comes to its limit.
-/

set_option autoImplicit false

namespace NamedContent

theorem Call.untold {id deadline : Nat} {slot : Slot} {ns : List Notice}
    (waits : (request id deadline slot).heard ns = request id deadline .empty) :
    slot = .empty ∧ (∀ block, .handed id block ∉ ns) ∧ .released id ∉ ns := by
  have filled {slot : Slot} (some : slot ≠ .empty) (rest : List Notice) :
      (request id deadline slot).heard rest ≠ request id deadline .empty := by
    rw [filled_heard id deadline some]
    exact fun same => some (Call.request.inj same).2.2
  have empty : slot = .empty := by
    by_contra some
    exact filled some ns waits
  subst empty
  refine ⟨rfl, ?_⟩
  induction ns with
  | nil => simp
  | cons n rest ih =>
    rw [heard] at waits
    cases n with
    | space => simpa using ih waits
    | claimed => simpa using ih waits
    | handed id' block =>
      by_cases same : id = id'
      · rw [hear?, if_pos same] at waits
        exact absurd waits (filled (by simp) rest)
      · rw [hear?, if_neg same] at waits
        simpa [same] using ih waits
    | released id' =>
      by_cases same : id = id'
      · rw [hear?, if_pos same] at waits
        exact absurd waits (filled (by simp) rest)
      · rw [hear?, if_neg same] at waits
        simpa [same] using ih waits

namespace Traffic

variable {κ : Type}

def filtersAfter (subs : List Subscription) (m : Move κ)
    (answer : Option (Except PublishError Answer)) : List Subscription :=
  match m, answer with
  | .subscribe interest limit, some (.ok (.registered id)) => subs ++ [⟨id, interest, limit, 0⟩]
  | .read id, some (.ok (.reading (.block _))) => subs.map (·.afterRead id)
  | .unsubscribe id, some _ => subs.filter fun x => x.id ≠ id
  | _, _ => subs

theorem filtersAfter_none (subs : List Subscription) (m : Move κ) :
    filtersAfter subs m none = subs := by
  cases m <;> rfl

variable [DecidableEq κ]

def filtersThrough (subs : List Subscription) (t : Traffic κ) : List (Move κ) → List Subscription
  | [] => subs
  | m :: rest =>
    filtersThrough (filtersAfter subs m (t.step m).answer) (t.step m).traffic rest

variable {t : Traffic κ} {m : Move κ} {f : Effect κ} {now : Nat} {subs : List Subscription}

theorem Puts.filtersAfter {who : κ} {block : Block} {deadline : Nat} {kept : List (κ × Call)}
    (puts : t.Puts m who block deadline kept) (answer : Option (Except PublishError Answer)) :
    filtersAfter subs m answer = subs := by
  cases puts <;> rfl

theorem Drains.filtersAfter {who : κ} {closing : Bool} {started deadline : Nat}
    {kept : List (κ × Call)} (drains : t.Drains m who closing started deadline kept)
    (answer : Option (Except PublishError Answer)) : filtersAfter subs m answer = subs := by
  cases drains <;> rfl

def Apart (t : Traffic κ) (subs : List Subscription) : Prop :=
  ∀ who id deadline slot, (who, .request id deadline slot) ∈ t.calls → ∀ x ∈ subs, x.id ≠ id

omit [DecidableEq κ] in
theorem readFeed_attended (h : t.buffer.Attended subs) (feed : Nat) :
    (t.buffer.readFeed feed).1.Attended (filtersAfter subs (.read feed : Move κ)
      (some (.ok (.reading (t.buffer.readFeed feed).2)))) := by
  rw [Buffer.readFeed]
  cases found : t.buffer.feed? feed with
  | none => exact h
  | some f =>
    cases queue : f.queue with
    | nil =>
      simp only [queue]
      cases t.buffer.waiter? feed <;> exact h
    | cons block rest =>
      simp only [queue]
      exact Buffer.read_attended h found queue

theorem Outcome.attended (outcome : t.Outcome m f) (sound : t.Sound)
    (h : t.buffer.Attended subs) (apart : t.Apart subs) :
    f.buffer.Attended (filtersAfter subs m f.answer) := by
  have room {b : Buffer} {block : Block} (tried : t.buffer.tryInsert block = .full b) :
      b.Attended subs := by
    obtain ⟨rfl, -⟩ := Buffer.tryInsert_full tried
    obtain ⟨entries, eq⟩ := t.buffer.makeRoom_eq block.name
    exact eq ▸ h.of_same rfl rfl rfl rfl
  have drained (phase : t.buffer.phase ≠ .closed) : t.buffer.beginDrain.Attended subs :=
    h.aside rfl (Nat.le_refl _) fun _ => ⟨phase, fun _ _ => Iff.rfl⟩
  cases outcome with
  | idle =>
    rw [filtersAfter_none]
    exact h
  | refused puts =>
    rw [puts.filtersAfter]
    exact h
  | @filed _ _ block _ _ _ _ puts tried =>
    rw [puts.filtersAfter]
    obtain ⟨accepting, -, -, filed⟩ := Buffer.tryInsert_filed tried
    obtain ⟨entries, eq⟩ := t.buffer.makeRoom_eq block.name
    have roomy : (t.buffer.makeRoom block.name).Attended subs := eq ▸ h.of_same rfl rfl rfl rfl
    have phase : (t.buffer.makeRoom block.name).phase ≠ .closed := by
      rw [eq]
      exact fun closed => absurd (accepting.symm.trans closed) Phase.noConfusion
    exact Buffer.file_attended roomy (Buffer.makeRoom_consistent sound.buffer _) phase filed
  | overfull puts tried | blocked puts tried =>
    rw [puts.filtersAfter]
    exact room tried
  | served free phase taken =>
    obtain ⟨_, -, -, -, rfl⟩ := Buffer.take?_eq_some sound.buffer taken
    exact h.of_same rfl rfl rfl rfl
  | missed =>
    have parked := Buffer.enroll_attended h
    exact (parked _).forget_other fun x hx => (h.issued x hx).ne
  | parked => exact Buffer.enroll_attended h _
  | gaveUp waits | cancelledRequest waits =>
    exact h.forget_other fun x hx => apart _ _ _ _ (mem_of_call? waits) x hx
  | rested drains | reported drains =>
    rw [drains.filtersAfter]
    exact h
  | ended drains =>
    rw [drains.filtersAfter]
    exact Buffer.shut_attended h
  | closing free phase => exact drained phase
  | closed free phase | closedPersistent free phase => exact Buffer.shut_attended (drained phase)
  | setCapacity => exact h.of_same rfl rfl rfl rfl
  | addNamespace => exact h.of_same rfl rfl rfl rfl
  | removeNamespace name =>
    obtain ⟨namespaces, eq⟩ := t.buffer.removeNamespace_eq name
    show (t.buffer.removeNamespace name).1.Attended subs
    rw [eq]
    exact h.of_same rfl rfl rfl rfl
  | clear => exact h.of_same rfl rfl rfl rfl
  | removed found =>
    obtain rfl := Buffer.remove?_eq_some found
    exact h.of_same rfl rfl rfl rfl
  | subscribed opened => exact Buffer.subscribe_attended h opened
  | read feed => exact readFeed_attended h feed
  | unsubscribed feed => exact Buffer.dropFeed_attended h feed
  | _ => exact h

omit [DecidableEq κ] in
theorem unanswered_of_heard {ns : List Notice} {calls : List (κ × Call)} {who : κ}
    {id deadline : Nat} (found : (who, .request id deadline .empty) ∈ heard ns calls) :
    (who, .request id deadline .empty) ∈ calls ∧ (∀ block, .handed id block ∉ ns) ∧
      .released id ∉ ns := by
  obtain ⟨old, listed, eq⟩ := mem_heard.mp found
  cases old with
  | put block deadline' woken =>
    rw [Call.put_heard] at eq
    contradiction
  | request id' deadline' slot =>
    obtain ⟨slot', same, -⟩ := Call.request_heard id' deadline' slot ns
    obtain ⟨rfl, rfl, -⟩ := Call.request.inj (same.symm.trans eq.symm)
    obtain ⟨rfl, untold⟩ := Call.untold eq.symm
    exact ⟨listed, untold⟩
  | drain closing started deadline' woken =>
    rw [Call.drain_heard] at eq
    contradiction

theorem Sound.left (sound : t.Sound) {who : κ} {id deadline : Nat} {slot : Slot}
    (waits : t.call? who = some (.request id deadline slot)) (who' : κ) (deadline' : Nat)
    (slot' : Slot) : (who', .request id deadline' slot') ∉ (t.withoutCall who).calls := by
  intro found
  obtain ⟨listed, other⟩ := List.mem_filter.mp found
  rw [sound.alone _ _ _ _ _ _ _ listed (mem_of_call? waits)] at other
  simp at other

theorem Outcome.once_stays (outcome : t.Outcome m f) (sound : t.Sound) {w : Waiter}
    (hw : w ∈ t.buffer.pending) (once : w.demand = .once) (kept : m ≠ .unsubscribe w.id) :
    w ∈ f.buffer.pending ∨ (∃ block, .handed w.id block ∈ f.notices) ∨
      .released w.id ∈ f.notices ∨
      ∀ who deadline slot, (who, .request w.id deadline slot) ∉ f.kept := by
  have room {b : Buffer} {block : Block} (tried : t.buffer.tryInsert block = .full b) :
      w ∈ b.pending := by
    obtain ⟨rfl, -⟩ := Buffer.tryInsert_full tried
    rwa [Buffer.makeRoom_pending]
  have released : .released w.id ∈ t.buffer.shutNotices := by
    have waiting : w ∈ t.buffer.pending.filter fun w => w.demand = .once :=
      List.mem_filter.mpr ⟨hw, by simpa using once⟩
    exact List.mem_append_left _ (List.mem_map.mpr ⟨w, waiting, rfl⟩)
  have given_up {who : κ} {id deadline : Nat} {slot : Slot}
      (waits : t.call? who = some (.request id deadline slot)) :
      w ∈ (t.buffer.forget id).pending ∨
        ∀ who' deadline slot, (who', .request w.id deadline slot) ∉ (t.withoutCall who).calls := by
    by_cases same : w.id = id
    · subst same
      exact .inr (sound.left waits)
    · exact .inl (Buffer.mem_forget_pending.mpr ⟨hw, same⟩)
  cases outcome with
  | @filed _ _ block _ _ _ ns puts tried =>
    by_cases told : .handed w.id block ∈ ns
    · exact .inr (.inl ⟨block, told⟩)
    · have before : w ∈ (t.buffer.makeRoom block.name).pending := by
        rwa [Buffer.makeRoom_pending]
      exact .inl (((filed_of_tryInsert sound tried).once w once).mpr ⟨before, told⟩)
  | overfull puts tried | blocked puts tried => exact .inl (room tried)
  | served free phase taken =>
    obtain ⟨_, -, -, -, rfl⟩ := Buffer.take?_eq_some sound.buffer taken
    exact .inl hw
  | missed =>
    have below := sound.buffer.below w hw
    exact .inl (Buffer.mem_forget_pending.mpr ⟨List.mem_append_left _ hw, below.ne⟩)
  | parked => exact .inl (List.mem_append_left _ hw)
  | gaveUp waits | cancelledRequest waits =>
    exact (given_up waits).imp_right fun left => .inr (.inr left)
  | ended drains => exact .inr (.inr (.inl released))
  | closed | closedPersistent => exact .inr (.inr (.inl (List.mem_cons_of_mem _ released)))
  | removeNamespace name =>
    obtain ⟨namespaces, eq⟩ := t.buffer.removeNamespace_eq name
    exact .inl (by rwa [eq])
  | removed found =>
    obtain rfl := Buffer.remove?_eq_some found
    exact .inl hw
  | subscribed opened =>
    obtain ⟨-, rfl⟩ := Buffer.subscribe?_eq_some opened
    exact .inl (List.mem_append_left _ hw)
  | read feed =>
    obtain ⟨feeds, eq⟩ := t.buffer.readFeed_eq feed
    exact .inl (by rwa [eq])
  | unsubscribed feed =>
    left
    refine Buffer.mem_forget_pending.mpr ⟨hw, ?_⟩
    rintro rfl
    exact kept rfl
  | _ => exact .inl hw

theorem Outcome.subscribed_standing {interest : Interest} {limit : Option Nat}
    (outcome : t.Outcome (.subscribe interest limit) f) (sound : t.Sound) {v : Waiter}
    (hv : v ∈ f.buffer.pending) (fresh : v.id = t.buffer.nextId) : v.demand ≠ .once := by
  have old (hv : v ∈ t.buffer.pending) : v.demand ≠ .once :=
    absurd fresh (sound.buffer.below v hv).ne
  cases outcome with
  | subscribed opened =>
    obtain ⟨-, rfl⟩ := Buffer.subscribe?_eq_some opened
    rcases List.mem_append.mp hv with before | new
    · exact old before
    · rw [List.mem_singleton.mp new]
      exact nofun
  | idle | unsubscribable => exact old hv
  | refused puts | filed puts | overfull puts | blocked puts => cases puts
  | rested drains | reported drains | ended drains => cases drains

/-- Every request in the table of waiters is a call in progress without a block. -/
def Awaited (t : Traffic κ) : Prop :=
  ∀ w ∈ t.buffer.pending, w.demand = .once →
    ∃ who deadline, (who, .request w.id deadline .empty) ∈ t.calls

theorem Outcome.awaited (outcome : t.Outcome m f) (trade : t.Trade m f) (sound : t.Sound)
    (h : t.Awaited) : (f.traffic now).Awaited := by
  intro v hv once
  obtain ⟨w, hw, same, -, demand⟩ | ⟨who, _, deadline, -, -, -, -, added⟩ |
    ⟨limit, rfl, fresh⟩ := outcome.pending_cases sound hv
  · obtain ⟨who, deadline, listed⟩ := h w hw (demand.mp once)
    exact ⟨who, deadline, outcome.waits_on trade sound hv once (same ▸ listed)⟩
  · exact ⟨who, deadline, mem_effect_calls.mpr (.inr (added ▸ List.mem_singleton.mpr rfl))⟩
  · exact absurd once (outcome.subscribed_standing sound hv fresh)

/-- The callers and the table of waiters agree: requests without a block are in
the table, and filters as long as they are open and not exhausted. -/
structure InStep (t : Traffic κ) (subs : List Subscription) : Prop where
  attended : t.buffer.Attended subs
  apart : t.Apart subs
  waits : ∀ who id deadline, (who, .request id deadline .empty) ∈ t.calls →
    ∃ w ∈ t.buffer.pending, w.id = id ∧ w.demand = .once
  waited : ∀ w ∈ t.buffer.pending, w.demand = .once →
    ∃ who deadline, (who, .request w.id deadline .empty) ∈ t.calls

omit [DecidableEq κ] in
theorem ofConfig_apart (config : Buffer.Config) : (ofConfig config : Traffic κ).Apart [] :=
  fun _ _ _ _ _ _ hx => absurd hx List.not_mem_nil

omit [DecidableEq κ] in
theorem ofConfig_inStep (config : Buffer.Config) : (ofConfig config : Traffic κ).InStep [] where
  attended := Buffer.ofConfig_attended config
  apart := ofConfig_apart config
  waits := by simp [ofConfig]
  waited := by simp [ofConfig, Buffer.ofConfig]

theorem Outcome.filters_cases (outcome : t.Outcome m f) {x : Subscription}
    (hx : x ∈ filtersAfter subs m f.answer) :
    (∃ y ∈ subs, y.id = x.id) ∨ x.id = t.buffer.nextId ∧ f.added = [] := by
  have before (hx : x ∈ subs) : ∃ y ∈ subs, y.id = x.id := ⟨x, hx, rfl⟩
  cases outcome with
  | idle =>
    rw [filtersAfter_none] at hx
    exact .inl (before hx)
  | refused puts | filed puts | overfull puts | blocked puts =>
    rw [puts.filtersAfter] at hx
    exact .inl (before hx)
  | rested drains | reported drains | ended drains =>
    rw [drains.filtersAfter] at hx
    exact .inl (before hx)
  | subscribed =>
    rcases List.mem_append.mp hx with old | new
    · exact .inl (before old)
    · rw [List.mem_singleton.mp new]
      exact .inr ⟨rfl, rfl⟩
  | read feed =>
    cases reading : (t.buffer.readFeed feed).2 with
    | block block =>
      simp only [reading] at hx
      obtain ⟨y, hy, rfl⟩ := List.mem_map.mp hx
      exact .inl ⟨y, hy, (y.afterRead_id feed).symm⟩
    | waiting | ended =>
      simp only [reading] at hx
      exact .inl (before hx)
  | unsubscribed => exact .inl (before (List.mem_of_mem_filter hx))
  | _ => exact .inl (before hx)

theorem Outcome.apart (outcome : t.Outcome m f) (sound : t.Sound)
    (attended : t.buffer.Attended subs) (h : t.Apart subs) :
    (f.traffic now).Apart (filtersAfter subs m f.answer) := by
  intro who id deadline slot found x hx
  obtain ⟨slot', old⟩ | ⟨rfl, added, -⟩ := outcome.request_cases found
  · obtain ⟨y, hy, same⟩ | ⟨fresh, -⟩ := outcome.filters_cases hx
    · exact same ▸ h who id deadline slot' old y hy
    · exact fresh ▸ (sound.issued _ _ _ _ old).ne'
  · obtain ⟨y, hy, same⟩ | ⟨-, none⟩ := outcome.filters_cases hx
    · exact same ▸ (attended.issued y hy).ne
    · rw [none] at added
      contradiction

theorem run_attended (config : Buffer.Config) (ms : List (Move κ)) :
    ∃ subs, ((ofConfig config : Traffic κ).run ms).buffer.Attended subs ∧
      ((ofConfig config : Traffic κ).run ms).Apart subs := by
  refine (run_preserves (P := fun t => ∃ subs, t.buffer.Attended subs ∧ t.Apart subs) ?_
    (ofConfig_sound config) ⟨[], Buffer.ofConfig_attended config, ofConfig_apart config⟩ ms).2
  rintro t m f sound ⟨subs, attended, apart⟩ outcome
  exact ⟨_, outcome.attended sound attended apart, outcome.apart sound attended apart⟩

theorem run_awaited (config : Buffer.Config) (ms : List (Move κ)) :
    ((ofConfig config : Traffic κ).run ms).Awaited := by
  induction ms using List.reverseRecOn with
  | nil => exact fun w hw => absurd hw List.not_mem_nil
  | append_singleton past m ih =>
    obtain ⟨f, outcome, shows⟩ := ((ofConfig config).run past).step_explained m
    rw [run_append, run, run, shows.traffic]
    exact outcome.awaited (outcome.trade shows.answer) (run_sound config past) ih

theorem Outcome.inStep (outcome : t.Outcome m f) (trade : t.Trade m f) (sound : t.Sound)
    (h : t.InStep subs) (own : ∀ id, m = .unsubscribe id → ∃ x ∈ subs, x.id = id) :
    (f.traffic now).InStep (filtersAfter subs m f.answer) where
  attended := outcome.attended sound h.attended h.apart
  apart := outcome.apart sound h.attended h.apart
  waits := by
    intro who id deadline found
    rcases mem_effect_calls.mp found with old | new
    · obtain ⟨kept, unhanded, unreleased⟩ := unanswered_of_heard old
      obtain ⟨w, hw, rfl, once⟩ := h.waits who id deadline (outcome.call_cases kept)
      have foreign : m ≠ .unsubscribe w.id := by
        rintro rfl
        obtain ⟨x, hx, same⟩ := own w.id rfl
        exact h.apart _ _ _ _ (outcome.call_cases kept) x hx same
      obtain stays | ⟨block, told⟩ | told | left := outcome.once_stays sound hw once foreign
      · exact ⟨w, stays, rfl, once⟩
      · exact absurd told (unhanded block)
      · exact absurd told unreleased
      · exact absurd kept (left _ _ _)
    · obtain ⟨interest, timeout, -, -, rfl, -, buffer⟩ := outcome.added_request new
      refine ⟨⟨t.buffer.nextId, interest, .once⟩, ?_, rfl, rfl⟩
      show _ ∈ f.buffer.pending
      rw [buffer]
      exact List.mem_append_right _ (List.mem_singleton.mpr rfl)
  waited := outcome.awaited trade sound h.waited

/-- Filters are dropped only while they are open, as it is their holders who drop them. -/
def DropsOpen (t : Traffic κ) : List (Move κ) → Prop
  | [] => True
  | m :: rest =>
    (∀ id, m = .unsubscribe id → (t.buffer.feed? id).isSome) ∧ DropsOpen (t.step m).traffic rest

theorem run_inStep (sound : t.Sound) (h : t.InStep subs) (ms : List (Move κ))
    (own : t.DropsOpen ms) : (t.run ms).InStep (filtersThrough subs t ms) := by
  induction ms generalizing t subs with
  | nil => exact h
  | cons m rest ih =>
    obtain ⟨f, outcome, shows⟩ := t.step_explained m
    obtain ⟨first, later⟩ := own
    have filters (id : Nat) (drop : m = .unsubscribe id) : ∃ x ∈ subs, x.id = id := by
      obtain ⟨feed, found⟩ := Option.isSome_iff_exists.mp (first id drop)
      have listed : feed.id ∈ subs.map (·.id) :=
        h.attended.feeds ▸ List.mem_map_of_mem (List.mem_of_find?_eq_some found)
      obtain ⟨x, hx, same⟩ := List.mem_map.mp listed
      exact ⟨x, hx, same.trans (by simpa using List.find?_some found)⟩
    refine ih (step_sound sound m) ?_ later
    rw [shows.traffic, shows.answer]
    exact outcome.inStep (outcome.trade shows.answer) sound h filters

end Traffic

end NamedContent
