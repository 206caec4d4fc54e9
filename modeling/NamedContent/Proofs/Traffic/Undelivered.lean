import Mathlib
import NamedContent.Proofs.Traffic.Delivery
import NamedContent.Proofs.Traffic.Losses

/-!
# Blocks that nobody has had

An entry counts its readers. In best-effort mode the count tells whether there has
been one: it is zero exactly if no move of the run has brought the block to anybody
since it was put. So what a buffer counts as unclaimed is what is undelivered.
-/

set_option autoImplicit false

namespace NamedContent

theorem exists_split_snoc {α : Type} {P : List α → α → Prop} {l : List α} {x : α} :
    (∃ before y after, l ++ [x] = before ++ y :: after ∧ P before y) ↔
      (∃ before y after, l = before ++ y :: after ∧ P before y) ∨ P l x := by
  constructor
  · rintro ⟨before, y, after, split, holds⟩
    obtain rfl | ⟨after, last, rfl⟩ := after.eq_nil_or_concat
    · obtain ⟨rfl, same⟩ := List.append_inj' split rfl
      exact .inr (List.singleton_inj.mp same ▸ holds)
    · have split : l ++ [x] = (before ++ y :: after) ++ [last] := by simpa using split
      exact .inl ⟨before, y, after, (List.append_inj' split rfl).1, holds⟩
  · rintro (⟨before, y, after, rfl, holds⟩ | holds)
    · exact ⟨before, y, after ++ [x], by simp, holds⟩
    · exact ⟨l, x, [], rfl, holds⟩

namespace Traffic

variable {κ : Type} [DecidableEq κ] {t : Traffic κ} {m : Move κ} {f : Effect κ} {a : Account κ}
  {past : List (Move κ)} {name : Name} {order : Nat}

theorem run_snoc (t : Traffic κ) (ms : List (Move κ)) (m : Move κ) :
    t.run (ms ++ [m]) = ((t.run ms).step m).traffic := run_append t ms [m]

theorem deliveredIn_snoc :
    t.DeliveredIn (past ++ [m]) order ↔ t.DeliveredIn past order ∨ (t.run past).Delivers m order :=
  exists_split_snoc

theorem Delivers.lt (delivers : t.Delivers m order) (sound : t.Sound) (h : t.Balanced a) :
    order < (t.step m).traffic.buffer.nextOrder := by
  obtain ⟨f, outcome, shows⟩ := t.step_explained m
  have count : (t.step m).traffic.buffer.nextOrder =
      t.buffer.nextOrder + (t.inserts? m).toList.length := by
    rw [shows.traffic]
    exact (outcome.trade shows.answer).count sound
  rw [count]
  cases delivers with
  | hands number sent =>
    cases inserts : t.inserts? m with
    | none =>
      rw [handsOut, inserts] at sent
      contradiction
    | some block => exact number ▸ Nat.lt_succ_self _
  | copies number inserts =>
    rw [inserts]
    exact number ▸ Nat.lt_succ_self _
  | serves listed number =>
    have before := h.order_lt listed
    rw [h.count] at before
    omega

theorem Trade.unread_next (trade : t.Trade m f) (sound : t.Sound)
    (best : t.buffer.bestEffort = true) (h : t.Balanced a)
    (buffer : (t.step m).traffic.buffer = f.buffer) {e : Entry}
    (listed : (name, e) ∈ f.buffer.entries.toList) (unread : e.deliveries = 0) :
    ¬t.Delivers m e.order ∧
      (e.order = t.buffer.nextOrder ∨ (name, e) ∈ t.buffer.entries.toList) := by
  have issued {name : Name} {e : Entry} (old : (name, e) ∈ t.buffer.entries.toList) :
      e.order < t.buffer.nextOrder := h.count ▸ h.order_lt old
  -- an old entry can only be delivered by a request
  have old (there : (name, e) ∈ t.buffer.entries.toList)
      (unserved : ∀ who, t.returns? m ≠ some (who, e.block)) :
      ¬t.Delivers m e.order ∧
        (e.order = t.buffer.nextOrder ∨ (name, e) ∈ t.buffer.entries.toList) := by
    refine ⟨fun delivers => ?_, .inr there⟩
    cases delivers with
    | hands number | copies number => exact (issued there).ne number
    | @serves name' e' who _ _ listed' number _ returns =>
      obtain rfl := h.distinct _ _ _ _ there listed' number
      obtain rfl : e = e' := Option.some.inj
        ((Table.find?_eq_some.mpr there).symm.trans (Table.find?_eq_some.mpr listed'))
      exact unserved who returns
  cases trade with
  | @files _ block _ puts tried added inserts returns =>
    have filed := filed_of_tryInsert sound tried
    rw [filed.entries] at listed
    rcases Table.mem_insert.mp listed with new | ⟨there, -⟩
    · obtain ⟨-, rfl⟩ := Prod.mk.inj new
      have number : ((t.buffer.makeRoom block.name).newEntry block).order = t.buffer.nextOrder :=
        Buffer.makeRoom_nextOrder t.buffer _
      refine ⟨fun delivers => ?_, .inl number⟩
      cases delivers with
      | hands _ sent =>
        have told := (Trade.files puts tried added inserts returns).mem_handsOut.mp sent
        exact filed.counted _ _ told unread
      | copies _ inserts' copied =>
        obtain rfl := Option.some.inj (inserts.symm.trans inserts')
        have consistent := Buffer.makeRoom_consistent sound.buffer block.name
        refine Buffer.uncopied_of_filed consistent (Buffer.tryInsert_filed tried).2.2.2 unread ?_
        obtain ⟨entries, eq⟩ := t.buffer.makeRoom_eq block.name
        rw [eq, ← buffer]
        exact copied
      | serves there number' => exact (issued there).ne (number'.symm.trans number)
    · refine old (Buffer.mem_of_makeRoom there) fun who => ?_
      rw [returns]
      nofun
  | @serves _ _ _ block move _ taken _ _ _ _ returns =>
    obtain ⟨e', listed', available, rfl, eq⟩ := Buffer.take?_eq_some sound.buffer taken
    rw [eq] at listed
    rcases Table.mem_insert.mp listed with new | ⟨there, apart⟩
    · obtain ⟨-, rfl⟩ := Prod.mk.inj new
      rw [Entry.afterRead, Buffer.unread_of_available best available] at unread
      contradiction
    · refine old there fun who returned => apart ?_
      rw [returns] at returned
      rw [(Prod.mk.inj (Option.some.inj returned)).2]
      exact (sound.buffer.keyed _ _ there).symm
  | fetches move _ _ same =>
    refine ⟨fun delivers => ?_, .inr (same ▸ listed)⟩
    cases delivers with
    | hands number | copies number => exact (issued (same ▸ listed)).ne number
    | serves _ _ move' => cases move.symm.trans move'
  | neither calm _ returns =>
    refine old (calm.entries _ listed) fun who => ?_
    rw [returns]
    nofun

theorem run_balanced (config : Buffer.Config) (ms : List (Move κ)) :
    ((ofConfig config).run ms).Balanced (Account.empty.through (ofConfig config) ms) :=
  (through_invariants (ofConfig_sound config) rfl (ofConfig_balanced config)
    (fun _ => ofConfig_unshared config) ms).1

theorem delivered_lt (config : Buffer.Config) {ms : List (Move κ)}
    (delivered : (ofConfig config).DeliveredIn ms order) :
    order < ((ofConfig config).run ms).buffer.nextOrder := by
  induction ms using List.reverseRecOn with
  | nil =>
    obtain ⟨before, m, after, split, -⟩ := delivered
    simp at split
  | append_singleton past m ih =>
    rw [run_snoc]
    obtain earlier | delivers := deliveredIn_snoc.mp delivered
    · obtain ⟨f, outcome, shows⟩ := ((ofConfig config).run past).step_explained m
      have count := (outcome.trade shows.answer).count (run_sound config past)
      rw [shows.traffic]
      exact (ih earlier).trans_le (count ▸ Nat.le_add_right _ _)
    · exact delivers.lt (run_sound config past) (run_balanced config past)

theorem run_bestEffort {config : Buffer.Config} (mode : config.mode = .bestEffort)
    (ms : List (Move κ)) : ((ofConfig config).run ms).buffer.bestEffort = true := by
  rw [Buffer.bestEffort, run_config, mode]
  rfl

theorem run_undelivered {config : Buffer.Config} (mode : config.mode = .bestEffort)
    (ms : List (Move κ)) {e : Entry}
    (listed : (name, e) ∈ ((ofConfig config).run ms).buffer.entries.toList)
    (unread : e.deliveries = 0) : ¬(ofConfig config).DeliveredIn ms e.order := by
  induction ms using List.reverseRecOn with
  | nil => contradiction
  | append_singleton past m ih =>
    obtain ⟨f, outcome, shows⟩ := ((ofConfig config).run past).step_explained m
    have buffer : (((ofConfig config).run past).step m).traffic.buffer = f.buffer :=
      congrArg Traffic.buffer shows.traffic
    have listed : (name, e) ∈ f.buffer.entries.toList := by
      rw [run_snoc] at listed
      exact buffer ▸ listed
    obtain ⟨undelivered, origin⟩ := (outcome.trade shows.answer).unread_next (run_sound config past)
      (run_bestEffort mode past) (run_balanced config past) buffer listed unread
    intro delivered
    obtain earlier | delivers := deliveredIn_snoc.mp delivered
    · obtain new | old := origin
      · exact (delivered_lt config earlier).ne new
      · exact ih old earlier
    · exact undelivered delivers

open scoped Classical in
/-- The entries that no move of the run has brought to anybody since they were put. -/
noncomputable def undelivered (start : Traffic κ) (ms : List (Move κ)) : List Entry :=
  (start.run ms).buffer.entries.values.filter fun e => ¬start.DeliveredIn ms e.order

/-- In best-effort mode just these are counted as unclaimed. -/
theorem unclaimed_eq {config : Buffer.Config} (mode : config.mode = .bestEffort)
    (ms : List (Move κ)) :
    ((ofConfig config).run ms).buffer.unclaimed = ((ofConfig config).undelivered ms).length := by
  rw [Buffer.unclaimed, undelivered]
  congr 1
  refine List.filter_congr fun e value => ?_
  obtain ⟨⟨name, e⟩, listed, rfl⟩ := List.mem_map.mp value
  rw [decide_eq_decide]
  refine ⟨fun unread => run_undelivered mode ms listed unread, ?_⟩
  exact fun undelivered => by_contra fun read => undelivered (run_delivered config ms listed read)

end Traffic

end NamedContent
