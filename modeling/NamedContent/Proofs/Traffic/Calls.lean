import Mathlib
import NamedContent.Proofs.Buffer.Change
import NamedContent.Proofs.Traffic.Outcome

/-!
# The calls in progress

A caller has one call at most, and every request that waits has an id of its
own. Each step changes the buffer in one of the known ways.
-/

set_option autoImplicit false

namespace NamedContent

namespace Call

theorem put_heard (block : Block) (deadline : Nat) (woken : Bool) (ns : List Notice) :
    (put block deadline woken).heard ns = put block deadline (woken || decide (.space ∈ ns)) := by
  induction ns generalizing woken with
  | nil => simp [heard]
  | cons n rest ih =>
    rw [heard]
    cases n with
    | space => simp [hear?, ih]
    | claimed => simp [hear?, ih]
    | handed => simp [hear?, ih]
    | released => simp [hear?, ih]

theorem drain_heard (closing : Bool) (started deadline : Nat) (woken : Bool) (ns : List Notice) :
    (drain closing started deadline woken).heard ns =
      drain closing started deadline (woken || decide (.claimed ∈ ns)) := by
  induction ns generalizing woken with
  | nil => simp [heard]
  | cons n rest ih =>
    rw [heard]
    cases n with
    | space => simp [hear?, ih]
    | claimed => simp [hear?, ih]
    | handed => simp [hear?, ih]
    | released => simp [hear?, ih]

theorem filled_heard (id deadline : Nat) {slot : Slot} (filled : slot ≠ .empty)
    (ns : List Notice) : (request id deadline slot).heard ns = request id deadline slot := by
  induction ns with
  | nil => rfl
  | cons n rest ih =>
    rw [heard]
    cases slot with
    | empty => contradiction
    | handed => simpa [hear?] using ih
    | released => simpa [hear?] using ih

theorem request_heard (id deadline : Nat) (slot : Slot) (ns : List Notice) :
    ∃ slot', (request id deadline slot).heard ns = request id deadline slot' ∧
      (slot' = slot ∨ slot = .empty ∧
        ((∃ block, slot' = .handed block ∧ .handed id block ∈ ns) ∨
          slot' = .released ∧ .released id ∈ ns)) := by
  by_cases filled : slot = .empty
  · subst filled
    induction ns with
    | nil => exact ⟨.empty, rfl, .inl rfl⟩
    | cons n rest ih =>
      have later : (hear? (request id deadline .empty) n) = none →
          ∃ slot', (request id deadline .empty).heard (n :: rest) = request id deadline slot' ∧
            (slot' = .empty ∨ Slot.empty = .empty ∧
              ((∃ block, slot' = .handed block ∧ .handed id block ∈ n :: rest) ∨
                slot' = .released ∧ .released id ∈ n :: rest)) := by
        intro deaf
        obtain ⟨slot', same, how⟩ := ih
        refine ⟨slot', by rw [heard, deaf]; exact same, ?_⟩
        obtain old | ⟨-, ⟨block, rfl, told⟩ | ⟨rfl, told⟩⟩ := how
        · exact .inl old
        · exact .inr ⟨rfl, .inl ⟨block, rfl, List.mem_cons_of_mem _ told⟩⟩
        · exact .inr ⟨rfl, .inr ⟨rfl, List.mem_cons_of_mem _ told⟩⟩
      cases n with
      | space => exact later rfl
      | claimed => exact later rfl
      | handed id' block =>
        by_cases same : id = id'
        · subst same
          refine ⟨.handed block, ?_, .inr ⟨rfl, .inl ⟨block, rfl, List.mem_cons_self⟩⟩⟩
          simp only [heard, hear?, if_true, Option.getD_some]
          exact filled_heard _ _ (by simp) _
        · exact later (if_neg same)
      | released id' =>
        by_cases same : id = id'
        · subst same
          refine ⟨.released, ?_, .inr ⟨rfl, .inr ⟨rfl, List.mem_cons_self⟩⟩⟩
          simp only [heard, hear?, if_true, Option.getD_some]
          exact filled_heard _ _ (by simp) _
        · exact later (if_neg same)
  · exact ⟨slot, filled_heard _ _ filled _, .inl rfl⟩

end Call

namespace Traffic

variable {κ : Type}

theorem heard_callers (ns : List Notice) (calls : List (κ × Call)) :
    (heard ns calls).map Prod.fst = calls.map Prod.fst := by
  simp [heard, Function.comp_def]

theorem mem_heard {ns : List Notice} {calls : List (κ × Call)} {who : κ} {call : Call} :
    (who, call) ∈ heard ns calls ↔ ∃ old, (who, old) ∈ calls ∧ call = old.heard ns := by
  rw [heard, List.mem_map]
  constructor
  · intro found
    obtain ⟨⟨who', old⟩, listed, eq⟩ := found
    obtain ⟨rfl, rfl⟩ := Prod.mk.inj eq
    exact ⟨old, listed, rfl⟩
  · intro found
    obtain ⟨old, listed, rfl⟩ := found
    exact ⟨(who, old), listed, rfl⟩

theorem waiting_of_heard {ns : List Notice} {calls : List (κ × Call)} {who : κ} {block : Block}
    {deadline : Nat} (found : (who, .put block deadline false) ∈ heard ns calls) :
    (who, .put block deadline false) ∈ calls ∧ .space ∉ ns := by
  obtain ⟨old, listed, eq⟩ := mem_heard.mp found
  cases old with
  | put block' deadline' woken =>
    rw [Call.put_heard] at eq
    obtain ⟨rfl, rfl, unwoken⟩ := Call.put.inj eq
    have unwoken : woken = false ∧ .space ∉ ns := by simpa using unwoken.symm
    obtain ⟨rfl, quiet⟩ := unwoken
    exact ⟨listed, quiet⟩
  | request id deadline' slot =>
    obtain ⟨slot', same, -⟩ := Call.request_heard id deadline' slot ns
    rw [same] at eq
    contradiction
  | drain closing started deadline' woken =>
    rw [Call.drain_heard] at eq
    contradiction

theorem request_of_heard {ns : List Notice} {calls : List (κ × Call)} {who : κ}
    {id deadline : Nat} {slot' : Slot}
    (found : (who, .request id deadline slot') ∈ heard ns calls) :
    ∃ slot, (who, .request id deadline slot) ∈ calls ∧
      (slot' = slot ∨ slot = .empty ∧
        ((∃ block, slot' = .handed block ∧ .handed id block ∈ ns) ∨
          slot' = .released ∧ .released id ∈ ns)) := by
  obtain ⟨old, listed, eq⟩ := mem_heard.mp found
  cases old with
  | put block' deadline' woken =>
    rw [Call.put_heard] at eq
    contradiction
  | request id' deadline' slot =>
    obtain ⟨slot'', same, how⟩ := Call.request_heard id' deadline' slot ns
    rw [same] at eq
    obtain ⟨rfl, rfl, rfl⟩ := Call.request.inj eq
    exact ⟨slot, listed, how⟩
  | drain closing started deadline' woken =>
    rw [Call.drain_heard] at eq
    contradiction

theorem drain_of_heard {ns : List Notice} {calls : List (κ × Call)} {who : κ} {closing : Bool}
    {started deadline : Nat} {woken : Bool}
    (found : (who, .drain closing started deadline woken) ∈ heard ns calls) :
    ∃ before, (who, .drain closing started deadline before) ∈ calls ∧
      woken = (before || decide (.claimed ∈ ns)) := by
  obtain ⟨old, listed, eq⟩ := mem_heard.mp found
  cases old with
  | put block' deadline' woken' =>
    rw [Call.put_heard] at eq
    contradiction
  | request id deadline' slot =>
    obtain ⟨_, same, -⟩ := Call.request_heard id deadline' slot ns
    rw [same] at eq
    contradiction
  | drain closing' started' deadline' before =>
    rw [Call.drain_heard] at eq
    obtain ⟨rfl, rfl, rfl, rfl⟩ := Call.drain.inj eq
    exact ⟨before, listed, rfl⟩

variable [DecidableEq κ]

theorem call?_eq_none {t : Traffic κ} {who : κ} :
    t.call? who = none ↔ who ∉ t.calls.map Prod.fst := by
  rw [call?, Option.map_eq_none_iff, List.find?_eq_none, List.mem_map]
  constructor
  · intro others found
    obtain ⟨c, listed, same⟩ := found
    simpa [same] using others c listed
  · intro absent c listed
    simpa using fun same => absent ⟨c, listed, same⟩

theorem mem_of_call? {t : Traffic κ} {who : κ} {call : Call} (waits : t.call? who = some call) :
    (who, call) ∈ t.calls := by
  obtain ⟨⟨who', call'⟩, found, rfl⟩ := Option.map_eq_some_iff.mp waits
  have same : who' = who := by simpa using List.find?_some found
  exact same ▸ List.mem_of_find?_eq_some found

theorem not_mem_withoutCall (t : Traffic κ) (who : κ) :
    who ∉ (t.withoutCall who).calls.map Prod.fst := by
  simp [withoutCall]

theorem Puts.kept_sublist {t : Traffic κ} {m : Move κ} {who : κ} {block : Block} {deadline : Nat}
    {kept : List (κ × Call)} (puts : t.Puts m who block deadline kept) :
    kept.Sublist t.calls ∧ who ∉ kept.map Prod.fst := by
  cases puts with
  | begun free => exact ⟨List.Sublist.refl _, call?_eq_none.mp free⟩
  | resumed => exact ⟨List.filter_sublist, t.not_mem_withoutCall who⟩

theorem Drains.kept_sublist {t : Traffic κ} {m : Move κ} {who : κ} {closing : Bool}
    {started deadline : Nat} {kept : List (κ × Call)}
    (drains : t.Drains m who closing started deadline kept) :
    kept.Sublist t.calls ∧ who ∉ kept.map Prod.fst := by
  cases drains with
  | begun free => exact ⟨List.Sublist.refl _, call?_eq_none.mp free⟩
  | resumed => exact ⟨List.filter_sublist, t.not_mem_withoutCall who⟩

variable {t : Traffic κ} {m : Move κ} {f : Effect κ}

theorem Outcome.kept_sublist (outcome : t.Outcome m f) : f.kept.Sublist t.calls := by
  cases outcome with
  | refused puts | filed puts | overfull puts | blocked puts => exact puts.kept_sublist.1
  | rested drains | reported drains | ended drains => exact drains.kept_sublist.1
  | expired | fetched | released | gaveUp | cancelledRequest | cancelled =>
    exact List.filter_sublist
  | _ => exact List.Sublist.refl _

theorem Outcome.added_cases (outcome : t.Outcome m f) :
    f.added = [] ∨ ∃ who, who ∉ f.kept.map Prod.fst ∧
      ((∃ block deadline, f.added = [(who, .put block deadline false)] ∧ f.notices = [] ∧
          t.buffer.tryInsert block = .full f.buffer) ∨
        (∃ interest deadline, f.added = [(who, .request t.buffer.nextId deadline .empty)] ∧
          f.notices = [] ∧ f.buffer = t.buffer.enroll interest .once ∧
          t.buffer.take? interest = none) ∨
        ∃ closing started deadline, f.added = [(who, .drain closing started deadline false)]) := by
  cases outcome with
  | blocked puts tried =>
    exact .inr ⟨_, puts.kept_sublist.2, .inl ⟨_, _, rfl, rfl, tried⟩⟩
  | parked free phase nothing =>
    exact .inr ⟨_, call?_eq_none.mp free, .inr (.inl ⟨_, _, rfl, rfl, rfl, nothing⟩)⟩
  | rested drains =>
    exact .inr ⟨_, drains.kept_sublist.2, .inr (.inr ⟨_, _, _, rfl⟩)⟩
  | closing free =>
    exact .inr ⟨_, call?_eq_none.mp free, .inr (.inr ⟨_, _, _, rfl⟩)⟩
  | _ => exact .inl rfl

theorem Outcome.change (outcome : t.Outcome m f) (h : t.buffer.Consistent) :
    t.buffer.Change f.buffer f.notices := by
  cases outcome with
  | filed puts tried => exact Buffer.change_of_filed tried
  | overfull puts tried | blocked puts tried => exact Buffer.change_of_full tried
  | served free phase taken =>
    obtain ⟨e, listed, available, rfl, rfl⟩ := Buffer.take?_eq_some h taken
    exact .serve phase listed available
  | missed free phase nothing => exact .miss phase nothing
  | parked free phase nothing => exact .park phase nothing
  | gaveUp | cancelledRequest => exact .forget _
  | ended => exact .shut
  | closing free phase => exact .drain phase
  | closed free phase | closedPersistent free phase => exact .close phase
  | setCapacity n => exact .resize n
  | addNamespace => exact .scope _
  | removeNamespace name =>
    obtain ⟨namespaces, eq⟩ := t.buffer.removeNamespace_eq name
    rw [eq]
    exact .scope _
  | clear => exact .clear
  | removed found =>
    obtain rfl := Buffer.remove?_eq_some found
    exact .remove _
  | subscribed opened => exact .subscribe opened
  | read feed =>
    obtain ⟨feeds, eq⟩ := t.buffer.readFeed_eq feed
    rw [eq]
    exact .read _
  | unsubscribed feed => exact .dropFeed feed
  | _ => exact .stay

omit [DecidableEq κ] in
theorem mem_effect_calls {now : Nat} {c : κ × Call} :
    c ∈ (f.traffic now).calls ↔ c ∈ heard f.notices f.kept ∨ c ∈ f.added :=
  List.mem_append

/-- What every run keeps up between the buffer and the calls. -/
structure Sound (t : Traffic κ) : Prop where
  buffer : t.buffer.Consistent
  callers : (t.calls.map Prod.fst).Nodup
  issued : ∀ who id deadline slot, (who, .request id deadline slot) ∈ t.calls → id < t.buffer.nextId
  alone : ∀ who id deadline slot who' deadline' slot', (who, .request id deadline slot) ∈ t.calls →
    (who', .request id deadline' slot') ∈ t.calls → who = who'

omit [DecidableEq κ] in
theorem ofConfig_sound (config : Buffer.Config) : (ofConfig config : Traffic κ).Sound where
  buffer := Buffer.ofConfig_consistent config
  callers := List.nodup_nil
  issued := by simp [ofConfig]
  alone := by simp [ofConfig]

omit [DecidableEq κ] in
theorem Sound.call_unique {t : Traffic κ} (h : t.Sound) {who : κ} {call call' : Call}
    (found : (who, call) ∈ t.calls) (found' : (who, call') ∈ t.calls) : call = call' :=
  (Prod.mk.inj (List.inj_on_of_nodup_map h.callers found found' rfl)).2

theorem Sound.call?_eq_some {t : Traffic κ} (h : t.Sound) {who : κ} {call : Call} :
    t.call? who = some call ↔ (who, call) ∈ t.calls := by
  refine ⟨mem_of_call?, ?_⟩
  intro found
  cases waits : t.call? who with
  | none => exact absurd (List.mem_map_of_mem found) (call?_eq_none.mp waits)
  | some other => rw [h.call_unique (mem_of_call? waits) found]

theorem Outcome.request_cases (outcome : t.Outcome m f) {now : Nat} {who : κ} {id deadline : Nat}
    {slot' : Slot} (found : (who, .request id deadline slot') ∈ (f.traffic now).calls) :
    (∃ slot, (who, .request id deadline slot) ∈ t.calls) ∨
      id = t.buffer.nextId ∧ f.added = [(who, .request id deadline slot')] ∧
        f.buffer.nextId = t.buffer.nextId + 1 := by
  rcases mem_effect_calls.mp found with old | new
  · obtain ⟨slot, listed, -⟩ := request_of_heard old
    exact .inl ⟨slot, outcome.kept_sublist.subset listed⟩
  · obtain none | ⟨who', -, ⟨_, _, eq, -⟩ | ⟨_, _, eq, -, buffer, -⟩ | ⟨_, _, _, eq⟩⟩ :=
      outcome.added_cases
    · rw [none] at new
      contradiction
    · rw [eq, List.mem_singleton] at new
      cases new
    · rw [eq, List.mem_singleton] at new
      cases new
      exact .inr ⟨rfl, eq, by rw [buffer]; rfl⟩
    · rw [eq, List.mem_singleton] at new
      cases new

theorem Outcome.sound (outcome : t.Outcome m f) (h : t.Sound) (now : Nat) :
    (f.traffic now).Sound where
  buffer := (outcome.change h.buffer).consistent h.buffer
  callers := by
    have kept := h.callers.sublist (outcome.kept_sublist.map Prod.fst)
    show ((heard f.notices f.kept ++ f.added).map Prod.fst).Nodup
    rw [List.map_append, heard_callers]
    obtain none | ⟨who, absent, how⟩ := outcome.added_cases
    · simpa [none] using kept
    · have added : f.added.map Prod.fst = [who] := by
        obtain ⟨_, _, eq, -⟩ | ⟨_, _, eq, -⟩ | ⟨_, _, _, eq⟩ := how
        · simp [eq]
        · simp [eq]
        · simp [eq]
      rw [added]
      exact kept.append (List.nodup_singleton _) (by simpa using absent)
  issued := by
    intro who id deadline slot' found
    show id < f.buffer.nextId
    obtain ⟨slot, old⟩ | ⟨rfl, -, next⟩ := outcome.request_cases found
    · have before := h.issued _ _ _ _ old
      have grows := (outcome.change h.buffer).nextId_le h.buffer
      omega
    · omega
  alone := by
    intro who id deadline slot who' deadline' slot' found found'
    obtain ⟨_, old⟩ | ⟨same, added, -⟩ := outcome.request_cases found
    · obtain ⟨_, old'⟩ | ⟨fresh, -⟩ := outcome.request_cases found'
      · exact h.alone _ _ _ _ _ _ _ old old'
      · have before := h.issued _ _ _ _ old
        omega
    · obtain ⟨_, old'⟩ | ⟨-, added', -⟩ := outcome.request_cases found'
      · have before := h.issued _ _ _ _ old'
        omega
      · rw [added] at added'
        exact (Prod.mk.inj (List.singleton_inj.mp added')).1

theorem step_sound (h : t.Sound) (m : Move κ) : (t.step m).traffic.Sound := by
  obtain ⟨f, outcome, shows⟩ := t.step_explained m
  rw [shows.traffic]
  exact outcome.sound h _

/-- What every step preserves in sound traffic holds after every run. -/
theorem run_preserves {P : Traffic κ → Prop}
    (step : ∀ t m f, t.Sound → P t → t.Outcome m f → P (f.traffic (t.now + m.duration)))
    {t : Traffic κ} (sound : t.Sound) (start : P t) (ms : List (Move κ)) :
    (t.run ms).Sound ∧ P (t.run ms) := by
  induction ms generalizing t with
  | nil => exact ⟨sound, start⟩
  | cons m rest ih =>
    obtain ⟨f, outcome, shows⟩ := t.step_explained m
    apply ih (step_sound sound m)
    rw [shows.traffic]
    exact step t m f sound start outcome

theorem run_sound (config : Buffer.Config) (ms : List (Move κ)) :
    ((ofConfig config).run ms).Sound :=
  (run_preserves (P := fun _ => True) (fun _ _ _ _ _ _ => trivial) (ofConfig_sound config) trivial
    ms).1

theorem run_config (config : Buffer.Config) (ms : List (Move κ)) :
    ((ofConfig config).run ms).buffer.config = config :=
  (run_preserves (P := fun t => t.buffer.config = config)
    (fun _ _ _ sound same outcome => ((outcome.change sound.buffer).config sound.buffer).trans same)
    (ofConfig_sound config) rfl ms).2

end Traffic

end NamedContent
