import Mathlib
import NamedContent.Proofs.Buffer.Recipients
import NamedContent.Proofs.Traffic.Balance

/-!
# What becomes of entries, waiters and calls

In one step an entry stays as it is, or it is read, replaced, swept, removed or
dropped with all others. A waiter has waited before, or a request or a
subscription has just registered it. A call goes on unless its own caller
moves.
-/

set_option autoImplicit false

namespace NamedContent

theorem Call.handed_of_told {id : Nat} (deadline : Nat) {block : Block} {ns : List Notice}
    (told : .handed id block ∈ ns) (kept : .released id ∉ ns) :
    ∃ block', (request id deadline .empty).heard ns = request id deadline (.handed block') := by
  induction ns with
  | nil => contradiction
  | cons n rest ih =>
    rw [heard]
    have later (other : n ≠ .handed id block) (deaf : hear? (request id deadline .empty) n = none) :
        ∃ block', (((request id deadline .empty).hear? n).getD
          (request id deadline .empty)).heard rest = request id deadline (.handed block') := by
      rw [deaf]
      refine ih ((List.mem_cons.mp told).resolve_left (Ne.symm other)) ?_
      exact fun inside => kept (List.mem_cons_of_mem _ inside)
    cases n with
    | space => exact later (by simp) rfl
    | claimed => exact later (by simp) rfl
    | handed id' block' =>
      by_cases same : id = id'
      · subst same
        refine ⟨block', ?_⟩
        rw [hear?, if_pos rfl]
        exact filled_heard _ _ (by simp) _
      · exact later (fun eq => same (Notice.handed.inj eq).1.symm) (if_neg same)
    | released id' =>
      have other : id ≠ id' := by
        rintro rfl
        exact kept List.mem_cons_self
      exact later (by simp) (if_neg other)

namespace Traffic

variable {κ : Type} [DecidableEq κ] {t : Traffic κ} {m : Move κ} {f : Effect κ} {now : Nat}

def Closing (t : Traffic κ) (m : Move κ) : Prop :=
  ∃ who, m = .close who ∨
    m = .resume who ∧ ∃ started deadline woken,
      t.call? who = some (.drain true started deadline woken)

/-- What a step may do to an entry. -/
inductive Fate (t : Traffic κ) (m : Move κ) (f : Effect κ) (name : Name) (e : Entry) : Prop where
  | stays (listed : (name, e) ∈ f.buffer.entries.toList)
  | read {who : κ} {interest : Interest} {timeout : Nat} (move : m = .request who interest timeout)
      (returns : t.returns? m = some (who, e.block))
      (listed : (name, e.afterRead) ∈ f.buffer.entries.toList)
  | replaced {block : Block} (inserts : t.inserts? m = some block) (same : block.name = name)
  | swept (best : t.buffer.bestEffort = true) (read : e.deliveries ≠ 0) {block : Block}
      (puts : t.putBlock? m = some block) (full : t.buffer.isFullFor block.name = true)
  | removed (move : m = .remove name)
  | cleared (move : m = .clear)
  | shut (closing : t.Closing m) (ended : f.buffer.phase = .closed)

theorem Drains.closing {who : κ} {started deadline : Nat} {kept : List (κ × Call)}
    (drains : t.Drains m who true started deadline kept) : t.Closing m := by
  cases drains with
  | resumed waits => exact ⟨who, .inr ⟨rfl, _, _, _, waits⟩⟩

theorem makeRoom_fate {b : Buffer} {name : Name} {e : Entry} (other : Name)
    (listed : (name, e) ∈ b.entries.toList) :
    (name, e) ∈ (b.makeRoom other).entries.toList ∨
      b.isFullFor other = true ∧ b.bestEffort = true ∧ e.deliveries ≠ 0 := by
  obtain same | ⟨full, mode, swept⟩ := b.makeRoom_cases other
  · exact .inl (by rwa [same])
  · by_cases unread : e.deliveries = 0
    · exact .inl (by rw [swept]; exact Buffer.mem_sweep.mpr ⟨listed, unread⟩)
    · exact .inr ⟨full, mode, unread⟩

theorem Outcome.fate (outcome : t.Outcome m f) (answer : (t.step m).answer = f.answer)
    (sound : t.Sound) {name : Name} {e : Entry} (listed : (name, e) ∈ t.buffer.entries.toList) :
    t.Fate m f name e := by
  have room {b : Buffer} {block : Block} (puts : t.putBlock? m = some block)
      (tried : t.buffer.tryInsert block = .full b) (buffer : f.buffer = b) : t.Fate m f name e := by
    obtain ⟨rfl, -⟩ := Buffer.tryInsert_full tried
    obtain stays | ⟨full, best, read⟩ := makeRoom_fate block.name listed
    · exact .stays (buffer ▸ stays)
    · exact .swept best read puts full
  cases outcome with
  | filed puts tried =>
    rename_i who block deadline kept b ns
    obtain stays | ⟨full, best, read⟩ := makeRoom_fate block.name listed
    · by_cases same : block.name = name
      · refine .replaced ?_ same
        rw [inserts?, answer]
        exact puts.putBlock?.1
      · refine .stays ?_
        show (name, e) ∈ b.entries.toList
        rw [(filed_of_tryInsert sound tried).entries]
        exact Table.mem_insert.mpr (.inr ⟨stays, Ne.symm same⟩)
    · exact .swept best read puts.putBlock?.1 full
  | overfull puts tried => exact room puts.putBlock?.1 tried rfl
  | blocked puts tried => exact room puts.putBlock?.1 tried rfl
  | served free phase taken =>
    obtain ⟨other, there, -, rfl, rfl⟩ := Buffer.take?_eq_some sound.buffer taken
    by_cases same : name = other.block.name
    · subst same
      obtain rfl : e = other :=
        (Prod.mk.inj (List.inj_on_of_nodup_map (Table.keys_nodup _) listed there rfl)).2
      refine .read rfl ?_ (Table.mem_insert.mpr (.inl rfl))
      rw [returns?, answer]
      rfl
    · exact .stays (Table.mem_insert.mpr (.inr ⟨listed, same⟩))
  | missed => exact .stays (by rwa [Buffer.forget_entries])
  | gaveUp => exact .stays (by rwa [Buffer.forget_entries])
  | cancelledRequest => exact .stays (by rwa [Buffer.forget_entries])
  | ended drains => exact .shut drains.closing rfl
  | closed => exact .shut ⟨_, .inl rfl⟩ rfl
  | closedPersistent => exact .shut ⟨_, .inl rfl⟩ rfl
  | removeNamespace space =>
    obtain ⟨namespaces, eq⟩ := t.buffer.removeNamespace_eq space
    exact .stays (by rwa [eq])
  | clear => exact .cleared rfl
  | @removed gone _ _ found =>
    obtain rfl := Buffer.remove?_eq_some found
    by_cases same : name = gone
    · exact .removed (by rw [same])
    · exact .stays (List.mem_filter.mpr ⟨listed, by simpa using same⟩)
  | subscribed opened =>
    obtain ⟨-, rfl⟩ := Buffer.subscribe?_eq_some opened
    exact .stays listed
  | read feed =>
    obtain ⟨feeds, eq⟩ := t.buffer.readFeed_eq feed
    exact .stays (by rwa [eq])
  | unsubscribed feed => exact .stays ((Buffer.forget_entries t.buffer feed).symm ▸ listed)
  | _ => exact .stays listed

theorem Outcome.pending_cases (outcome : t.Outcome m f) (sound : t.Sound) {v : Waiter}
    (hv : v ∈ f.buffer.pending) : (∃ w ∈ t.buffer.pending, v.Continues w) ∨
      (∃ who timeout deadline, m = .request who v.interest timeout ∧ v.demand = .once ∧
        v.id = t.buffer.nextId ∧ t.buffer.take? v.interest = none ∧
        f.added = [(who, .request v.id deadline .empty)]) ∨
      ∃ limit, m = .subscribe v.interest limit ∧ v.id = t.buffer.nextId := by
  have before (hw : v ∈ t.buffer.pending) : ∃ w ∈ t.buffer.pending, v.Continues w :=
    ⟨v, hw, .refl v⟩
  have left {id : Nat} (hw : v ∈ (t.buffer.forget id).pending) :
      ∃ w ∈ t.buffer.pending, v.Continues w :=
    before (Buffer.mem_forget_pending.mp hw).1
  have room {b : Buffer} {block : Block} (tried : t.buffer.tryInsert block = .full b)
      (hw : v ∈ b.pending) : ∃ w ∈ t.buffer.pending, v.Continues w := by
    obtain ⟨rfl, -⟩ := Buffer.tryInsert_full tried
    exact before (Buffer.makeRoom_pending _ _ ▸ hw)
  cases outcome with
  | @filed _ _ block _ _ _ _ puts tried =>
    obtain ⟨w, hw, same⟩ := Buffer.file_continues (Buffer.makeRoom_consistent sound.buffer _)
      (Buffer.tryInsert_filed tried).2.2.2 v hv
    exact .inl ⟨w, Buffer.makeRoom_pending t.buffer block.name ▸ hw, same⟩
  | overfull _ tried => exact .inl (room tried hv)
  | blocked _ tried => exact .inl (room tried hv)
  | served free phase taken =>
    obtain ⟨_, -, -, -, rfl⟩ := Buffer.take?_eq_some sound.buffer taken
    exact .inl (before hv)
  | missed =>
    obtain ⟨hw, other⟩ := Buffer.mem_forget_pending.mp hv
    rcases List.mem_append.mp hw with old | new
    · exact .inl (before old)
    · exact absurd (congrArg Waiter.id (List.mem_singleton.mp new)) other
  | parked free phase nothing =>
    rcases List.mem_append.mp hv with old | new
    · exact .inl (before old)
    · obtain rfl := List.mem_singleton.mp new
      exact .inr (.inl ⟨_, _, _, rfl, rfl, rfl, nothing, rfl⟩)
  | gaveUp => exact .inl (left hv)
  | cancelledRequest => exact .inl (left hv)
  | ended => contradiction
  | closed => contradiction
  | closedPersistent => contradiction
  | removeNamespace space =>
    obtain ⟨namespaces, eq⟩ := t.buffer.removeNamespace_eq space
    exact .inl (before (by rwa [eq] at hv))
  | removed found =>
    obtain rfl := Buffer.remove?_eq_some found
    exact .inl (before hv)
  | subscribed opened =>
    obtain ⟨-, rfl⟩ := Buffer.subscribe?_eq_some opened
    rcases List.mem_append.mp hv with old | new
    · exact .inl (before old)
    · obtain rfl := List.mem_singleton.mp new
      exact .inr (.inr ⟨_, rfl, rfl⟩)
  | read feed =>
    obtain ⟨feeds, eq⟩ := t.buffer.readFeed_eq feed
    exact .inl (before (by rwa [eq] at hv))
  | unsubscribed feed =>
    have stayed : v ∈ (t.buffer.forget feed).pending := hv
    exact .inl (left stayed)
  | _ => exact .inl (before hv)

theorem Outcome.kept_cases (outcome : t.Outcome m f) {c : κ × Call} (hc : c ∈ t.calls) :
    c ∈ f.kept ∨ m = .resume c.1 ∨ m = .cancel c.1 := by
  have others {who : κ} (move : m = .resume who ∨ m = .cancel who) :
      c ∈ (t.withoutCall who).calls ∨ m = .resume c.1 ∨ m = .cancel c.1 := by
    by_cases same : c.1 = who
    · exact .inr (same ▸ move)
    · exact .inl (List.mem_filter.mpr ⟨hc, by simpa using same⟩)
  have putting {who : κ} {block : Block} {deadline : Nat} {kept : List (κ × Call)}
      (puts : t.Puts m who block deadline kept) :
      c ∈ kept ∨ m = .resume c.1 ∨ m = .cancel c.1 := by
    cases puts with
    | begun => exact .inl hc
    | resumed => exact others (.inl rfl)
  have draining {who : κ} {closing : Bool} {started deadline : Nat} {kept : List (κ × Call)}
      (drains : t.Drains m who closing started deadline kept) :
      c ∈ kept ∨ m = .resume c.1 ∨ m = .cancel c.1 := by
    cases drains with
    | begun => exact .inl hc
    | resumed => exact others (.inl rfl)
  cases outcome with
  | refused puts | filed puts | overfull puts | blocked puts => exact putting puts
  | rested drains | reported drains | ended drains => exact draining drains
  | expired | fetched | released | gaveUp => exact others (.inl rfl)
  | cancelledRequest | cancelled => exact others (.inr rfl)
  | _ => exact .inl hc

theorem Puts.keeps_request (sound : t.Sound) {who who' : κ} {block : Block} {deadline : Nat}
    {kept : List (κ × Call)} (puts : t.Puts m who block deadline kept) {id deadline' : Nat}
    {slot : Slot} (listed : (who', .request id deadline' slot) ∈ t.calls) :
    (who', .request id deadline' slot) ∈ kept := by
  cases puts with
  | begun => exact listed
  | resumed waits =>
    refine List.mem_filter.mpr ⟨listed, ?_⟩
    rw [decide_eq_true_eq]
    rintro rfl
    cases sound.call_unique listed (mem_of_call? waits)

theorem Outcome.put_cases (outcome : t.Outcome m f) {who : κ} {block : Block} {deadline : Nat}
    {woken : Bool} (found : (who, .put block deadline woken) ∈ (f.traffic now).calls) :
    m = .put who block ∨ ∃ woken', (who, .put block deadline woken') ∈ t.calls := by
  rcases mem_effect_calls.mp found with old | new
  · obtain ⟨call, listed, eq⟩ := mem_heard.mp old
    cases call with
    | put block' deadline' woken' =>
      rw [Call.put_heard] at eq
      obtain ⟨rfl, rfl, -⟩ := Call.put.inj eq
      exact .inr ⟨woken', outcome.call_cases listed⟩
    | request id deadline' slot =>
      obtain ⟨_, same, -⟩ := Call.request_heard id deadline' slot f.notices
      rw [same] at eq
      contradiction
    | drain closing started deadline' woken' =>
      rw [Call.drain_heard] at eq
      contradiction
  · cases outcome with
    | blocked puts =>
      cases List.mem_singleton.mp new
      cases puts with
      | begun => exact .inl rfl
      | resumed waits => exact .inr ⟨true, mem_of_call? waits⟩
    | parked => cases List.mem_singleton.mp new
    | rested => cases List.mem_singleton.mp new
    | closing => cases List.mem_singleton.mp new
    | _ => contradiction

theorem Outcome.request_kept (outcome : t.Outcome m f) (sound : t.Sound) {who : κ}
    {id deadline : Nat} (listed : (who, .request id deadline .empty) ∈ t.calls) :
    (who, .request id deadline .empty) ∈ f.kept ∨ f.buffer = t.buffer.forget id := by
  have waits := sound.call?_eq_some.mpr listed
  obtain kept | rfl | rfl := outcome.kept_cases listed
  · exact .inl kept
  · cases outcome with
    | idle => exact .inl listed
    | gaveUp waits' =>
      obtain ⟨rfl, -, -⟩ := Call.request.inj (Option.some.inj (waits.symm.trans waits'))
      exact .inr rfl
    | refused puts | filed puts | overfull puts | blocked puts =>
      cases puts with
      | resumed waits' => cases waits.symm.trans waits'
    | rested drains | reported drains | ended drains =>
      cases drains with
      | resumed waits' => cases waits.symm.trans waits'
    | expired waits' | fetched waits' | released waits' => cases waits.symm.trans waits'
  · cases outcome with
    | idle => exact .inl listed
    | cancelledRequest waits' =>
      obtain ⟨rfl, -, -⟩ := Call.request.inj (Option.some.inj (waits.symm.trans waits'))
      exact .inr rfl
    | cancelled other => exact absurd waits (other _ _ _)
    | refused puts | filed puts | overfull puts | blocked puts => cases puts
    | rested drains | reported drains | ended drains => cases drains

omit [DecidableEq κ] in
theorem deliveryNotices_unreleased (b : Buffer) (id : Nat) : .released id ∉ b.deliveryNotices := by
  rw [Buffer.deliveryNotices]
  split <;> simp

theorem Outcome.pending_of_released (outcome : t.Outcome m f) (sound : t.Sound) {id : Nat}
    (told : .released id ∈ f.notices) : f.buffer.pending = [] := by
  cases outcome with
  | filed _ tried => exact absurd told ((filed_of_tryInsert sound tried).unreleased id)
  | served => exact absurd told (deliveryNotices_unreleased _ id)
  | ended => rfl
  | closed => rfl
  | closedPersistent => rfl
  | clear | removed => simp [Buffer.removalNotices] at told
  | closing | setCapacity => simp at told
  | _ => contradiction

theorem Outcome.closing_of_released (outcome : t.Outcome m f) (sound : t.Sound) {id : Nat}
    (told : .released id ∈ f.notices) : t.Closing m := by
  cases outcome with
  | filed _ tried => exact absurd told ((filed_of_tryInsert sound tried).unreleased id)
  | served => exact absurd told (deliveryNotices_unreleased _ id)
  | ended drains => exact drains.closing
  | closed => exact ⟨_, .inl rfl⟩
  | closedPersistent => exact ⟨_, .inl rfl⟩
  | clear | removed => simp [Buffer.removalNotices] at told
  | closing | setCapacity => simp at told
  | _ => contradiction

theorem Trade.untold (trade : t.Trade m f) (sound : t.Sound) {v : Waiter}
    (hv : v ∈ f.buffer.pending) (once : v.demand = .once) (block : Block) :
    .handed v.id block ∉ f.notices := by
  intro told
  obtain ⟨inserts, -⟩ := trade.told sound told
  cases trade with
  | files _ tried =>
    have filed := filed_of_tryInsert sound tried
    obtain ⟨rfl, -⟩ := filed.handed _ _ told
    exact ((filed.once v once).mp hv).2 told
  | serves _ _ _ _ _ _ nothing | fetches _ _ _ _ _ _ nothing | neither _ nothing =>
    rw [nothing] at inserts
    contradiction

theorem Outcome.waits_on (outcome : t.Outcome m f) (trade : t.Trade m f) (sound : t.Sound)
    {who : κ} {v : Waiter} {deadline : Nat} (hv : v ∈ f.buffer.pending) (once : v.demand = .once)
    (listed : (who, .request v.id deadline .empty) ∈ t.calls) :
    (who, .request v.id deadline .empty) ∈ (f.traffic now).calls := by
  obtain kept | forgotten := outcome.request_kept sound listed
  · refine mem_effect_calls.mpr (.inl (mem_heard.mpr ⟨_, kept, ?_⟩))
    obtain ⟨slot, same, rfl | ⟨-, ⟨block, -, told⟩ | ⟨-, told⟩⟩⟩ :=
      Call.request_heard v.id deadline .empty f.notices
    · exact same.symm
    · exact absurd told (trade.untold sound hv once block)
    · rw [outcome.pending_of_released sound told] at hv
      contradiction
  · rw [forgotten] at hv
    exact absurd rfl (Buffer.mem_forget_pending.mp hv).2

theorem returns?_of_handed {who : κ} {id deadline : Nat} {block : Block}
    (waits : t.call? who = some (.request id deadline (.handed block))) :
    t.returns? (.resume who) = some (who, block) := by
  have answer : (t.step (.resume who)).answer = some (.ok (.block block)) := by
    show (t.resume who).answer = _
    simp only [resume, waits]
    rfl
  rw [returns?, answer]
  simp only [requester?, waits, Option.map_some]

theorem Outcome.holds_on (outcome : t.Outcome m f) (sound : t.Sound) {who : κ} {id deadline : Nat}
    {block : Block} (listed : (who, .request id deadline (.handed block)) ∈ t.calls) :
    (who, .request id deadline (.handed block)) ∈ (f.traffic now).calls ∨
      t.returns? m = some (who, block) ∨ m = .cancel who := by
  obtain kept | rfl | rfl := outcome.kept_cases listed
  · refine .inl (mem_effect_calls.mpr (.inl (mem_heard.mpr ⟨_, kept, ?_⟩)))
    exact (Call.filled_heard id deadline (by simp) _).symm
  · exact .inr (.inl (returns?_of_handed (sound.call?_eq_some.mpr listed)))
  · exact .inr (.inr rfl)

omit [DecidableEq κ] in
theorem free_after {who : κ} (added : f.added = []) (left : who ∉ f.kept.map Prod.fst) :
    who ∉ (f.traffic now).calls.map Prod.fst := by
  rwa [Effect.traffic, added, List.append_nil, heard_callers]

theorem Trade.requester_free (trade : t.Trade m f) {who : κ} {block : Block}
    (returns : t.returns? m = some (who, block)) :
    who ∉ (f.traffic now).calls.map Prod.fst := by
  cases trade with
  | files _ _ _ _ none | neither _ _ none =>
    rw [none] at returns
    contradiction
  | serves _ free _ kept _ added _ here =>
    obtain ⟨rfl, -⟩ := Prod.mk.inj (Option.some.inj (here.symm.trans returns))
    exact free_after added (kept ▸ call?_eq_none.mp free)
  | fetches _ _ kept _ _ added _ here =>
    obtain ⟨rfl, -⟩ := Prod.mk.inj (Option.some.inj (here.symm.trans returns))
    exact free_after added (kept ▸ t.not_mem_withoutCall _)

theorem Outcome.closing_cases (outcome : t.Outcome m f) {who : κ} {started deadline : Nat}
    {woken : Bool}
    (found : (who, .drain true started deadline woken) ∈ (f.traffic now).calls) :
    f.buffer.phase ≠ .accepting ∨
      ∃ woken', (who, .drain true started deadline woken') ∈ t.calls := by
  rcases mem_effect_calls.mp found with old | new
  · obtain ⟨woken', listed, -⟩ := drain_of_heard old
    exact .inr ⟨woken', outcome.call_cases listed⟩
  · cases outcome with
    | blocked => cases List.mem_singleton.mp new
    | parked => cases List.mem_singleton.mp new
    | rested drains =>
      cases List.mem_singleton.mp new
      cases drains with
      | resumed waits => exact .inr ⟨_, mem_of_call? waits⟩
    | closing => exact .inl Phase.noConfusion
    | _ => contradiction

theorem Outcome.phase (outcome : t.Outcome m f) (sound : t.Sound) :
    f.buffer.phase = t.buffer.phase ∨ f.buffer.phase ≠ .accepting ∧ t.Closing m := by
  have room {b : Buffer} {block : Block} (tried : t.buffer.tryInsert block = .full b) :
      b.phase = t.buffer.phase := by
    obtain ⟨rfl, -⟩ := Buffer.tryInsert_full tried
    obtain ⟨entries, eq⟩ := t.buffer.makeRoom_eq block.name
    rw [eq]
  cases outcome with
  | @filed _ _ block _ _ _ _ _ tried =>
    obtain ⟨entries, eq⟩ := t.buffer.makeRoom_eq block.name
    exact .inl (by rw [(filed_of_tryInsert sound tried).phase, eq])
  | overfull _ tried => exact .inl (room tried)
  | blocked _ tried => exact .inl (room tried)
  | served free phase taken =>
    obtain ⟨_, -, -, -, rfl⟩ := Buffer.take?_eq_some sound.buffer taken
    exact .inl rfl
  | missed => exact .inl (Buffer.forget_sameStore _ _).phase
  | gaveUp => exact .inl (Buffer.forget_sameStore _ _).phase
  | cancelledRequest => exact .inl (Buffer.forget_sameStore _ _).phase
  | ended drains => exact .inr ⟨Phase.noConfusion, drains.closing⟩
  | closing => exact .inr ⟨Phase.noConfusion, _, .inl rfl⟩
  | closed => exact .inr ⟨Phase.noConfusion, _, .inl rfl⟩
  | closedPersistent => exact .inr ⟨Phase.noConfusion, _, .inl rfl⟩
  | removeNamespace space =>
    obtain ⟨namespaces, eq⟩ := t.buffer.removeNamespace_eq space
    exact .inl (by rw [eq])
  | removed found =>
    obtain rfl := Buffer.remove?_eq_some found
    exact .inl rfl
  | subscribed opened =>
    obtain ⟨-, rfl⟩ := Buffer.subscribe?_eq_some opened
    exact .inl rfl
  | read feed =>
    obtain ⟨feeds, eq⟩ := t.buffer.readFeed_eq feed
    exact .inl (by rw [eq])
  | unsubscribed feed => exact .inl (Buffer.forget_sameStore t.buffer feed).phase
  | _ => exact .inl rfl

/-- No close is waiting for readers. -/
def Unclosing (t : Traffic κ) : Prop :=
  ∀ who started deadline woken, (who, .drain true started deadline woken) ∉ t.calls

theorem Outcome.accepting_next (outcome : t.Outcome m f) (sound : t.Sound)
    (unclosing : t.buffer.phase = .accepting → t.Unclosing)
    (accepting : f.buffer.phase = .accepting) : (f.traffic now).Unclosing := by
  intro who started deadline woken found
  obtain ended | ⟨woken', before⟩ := outcome.closing_cases found
  · exact ended accepting
  · obtain same | ⟨ended, -⟩ := outcome.phase sound
    · exact unclosing (same ▸ accepting) who started deadline woken' before
    · exact ended accepting

theorem Unclosing.not_closing (unclosing : t.Unclosing) (other : ∀ who, m ≠ .close who) :
    ¬t.Closing m := by
  rintro ⟨who, rfl | ⟨rfl, started, deadline, woken, waits⟩⟩
  · exact other who rfl
  · exact unclosing _ _ _ _ (mem_of_call? waits)

theorem Outcome.stays_open (outcome : t.Outcome m f) (sound : t.Sound)
    (accepting : t.buffer.phase = .accepting) (unclosing : t.Unclosing)
    (other : ∀ who, m ≠ .close who) :
    (f.traffic now).buffer.phase = .accepting ∧ (f.traffic now).Unclosing := by
  obtain same | ⟨-, closing⟩ := outcome.phase sound
  · have after : f.buffer.phase = .accepting := same.trans accepting
    exact ⟨after, outcome.accepting_next sound (fun _ => unclosing) after⟩
  · exact absurd closing (unclosing.not_closing other)

theorem run_unclosing (config : Buffer.Config) (ms : List (Move κ))
    (accepting : ((ofConfig config : Traffic κ).run ms).buffer.phase = .accepting) :
    ((ofConfig config).run ms).Unclosing := by
  apply (run_preserves (P := fun t => t.buffer.phase = .accepting → t.Unclosing) _
    (ofConfig_sound config) _ ms).2 accepting
  · intro t m f sound unclosing outcome
    exact outcome.accepting_next sound unclosing
  · intro _ _ _ _ _ listed
    contradiction

end Traffic

end NamedContent
