import Mathlib
import NamedContent.Proofs.Traffic.Registry
import NamedContent.Proofs.Traffic.Room

/-!
# Blocks on their way to waiting requests

A put hands its block to requests that are calls in progress, each of which has
it in its slot after the move and is woken by it. From then on the request is
out of the table of waiters, so nothing is handed to it again.
-/

set_option autoImplicit false

namespace NamedContent

/-- Nobody waits under this id any more, and nobody will. -/
def Buffer.Gone (b : Buffer) (id : Nat) : Prop := id < b.nextId ∧ ∀ w ∈ b.pending, w.id ≠ id

theorem Buffer.Gone.waiter? {b : Buffer} {id : Nat} (gone : b.Gone id) : b.waiter? id = none := by
  rw [Buffer.waiter?, List.find?_eq_none]
  simpa using gone.2

namespace Traffic

variable {κ : Type} [DecidableEq κ] {t : Traffic κ} {m : Move κ} {f : Effect κ} {now : Nat}
  {who : κ} {id deadline : Nat} {block : Block}

def handsOut (t : Traffic κ) (m : Move κ) : List (Nat × Block) :=
  match (t.inserts? m).map t.buffer.tryInsert with
  | some (.filed _ notices) => notices.filterMap fun
    | .handed id block => some (id, block)
    | _ => none
  | _ => []

theorem Trade.mem_handsOut (trade : t.Trade m f) :
    (id, block) ∈ t.handsOut m ↔ .handed id block ∈ f.notices := by
  have nothing (inserts : t.inserts? m = none) (unhanded : .handed id block ∉ f.notices) :
      (id, block) ∈ t.handsOut m ↔ .handed id block ∈ f.notices := by
    rw [handsOut, inserts]
    exact iff_of_false List.not_mem_nil unhanded
  cases trade with
  | files puts tried _ inserts =>
    rw [handsOut, inserts, Option.map_some, tried]
    simp only [List.mem_filterMap]
    constructor
    · rintro ⟨n, told, eq⟩
      cases n with
      | handed id' block' =>
        obtain ⟨rfl, rfl⟩ := Prod.mk.inj (Option.some.inj eq)
        exact told
      | space | claimed | released => contradiction
    · exact fun told => ⟨_, told, rfl⟩
  | serves _ _ _ _ notices _ inserts =>
    exact nothing inserts (notices ▸ deliveryNotices_unhanded _ _ _)
  | fetches _ _ _ _ notices _ inserts => exact nothing inserts (notices ▸ List.not_mem_nil)
  | neither calm inserts => exact nothing inserts (calm.unhanded id block)

theorem Trade.handed_on (trade : t.Trade m f) (sound : t.Sound)
    (listed : (who, .request id deadline .empty) ∈ t.calls) (told : .handed id block ∈ f.notices) :
    (who, .request id deadline .empty) ∈ f.kept ∧
      (who, .request id deadline (.handed block)) ∈ (f.traffic now).calls := by
  have inserts := (trade.told sound told).1
  cases trade with
  | files puts tried =>
    have filed := filed_of_tryInsert sound tried
    have kept := puts.keeps_request sound listed
    refine ⟨kept, mem_effect_calls.mpr (.inl (mem_heard.mpr ⟨_, kept, ?_⟩))⟩
    obtain ⟨other, heard⟩ := Call.handed_of_told deadline told (filed.unreleased id)
    obtain ⟨slot, same, rfl | ⟨-, ⟨block', rfl, told'⟩ | ⟨rfl, -⟩⟩⟩ :=
      Call.request_heard id deadline .empty f.notices
    · cases heard.symm.trans same
    · -- all copies are of the block that is filed
      rw [same, (filed.handed _ _ told).1, (filed.handed _ _ told').1]
    · cases heard.symm.trans same
  | serves _ _ _ _ _ _ none | fetches _ _ _ _ _ _ none | neither _ none =>
    rw [none] at inserts
    contradiction

theorem Outcome.gone (outcome : t.Outcome m f) (sound : t.Sound) (gone : t.buffer.Gone id) :
    f.buffer.Gone id := by
  refine ⟨gone.1.trans_le ((outcome.change sound.buffer).nextId_le sound.buffer), ?_⟩
  intro v hv
  obtain ⟨w, hw, same, -⟩ | ⟨_, _, _, -, -, fresh, -⟩ | ⟨_, -, fresh⟩ :=
    outcome.pending_cases sound hv
  · exact same ▸ gone.2 w hw
  · exact fresh ▸ gone.1.ne'
  · exact fresh ▸ gone.1.ne'

theorem Outcome.gone_of_told (outcome : t.Outcome m f) (trade : t.Trade m f) (sound : t.Sound)
    (told : .handed id block ∈ f.notices) : f.buffer.Gone id := by
  obtain ⟨-, w, hw, rfl, once, -⟩ := trade.told sound told
  have issued := sound.buffer.below w hw
  refine ⟨issued.trans_le ((outcome.change sound.buffer).nextId_le sound.buffer), ?_⟩
  intro v hv same
  obtain ⟨u, hu, same', -, demand⟩ | ⟨_, _, _, -, -, fresh, -⟩ | ⟨_, -, fresh⟩ :=
    outcome.pending_cases sound hv
  · obtain rfl := Buffer.same_of_id sound.buffer hu hw (same'.symm.trans same)
    exact trade.untold sound hv (demand.mpr once) block (same ▸ told)
  · exact issued.ne (same.symm.trans fresh)
  · exact issued.ne (same.symm.trans fresh)

theorem Outcome.gone_of_released (outcome : t.Outcome m f) (sound : t.Sound)
    (issued : id < t.buffer.nextId) (told : .released id ∈ f.notices) : f.buffer.Gone id := by
  refine ⟨issued.trans_le ((outcome.change sound.buffer).nextId_le sound.buffer), ?_⟩
  rw [outcome.pending_of_released sound told]
  nofun

theorem Trade.taker (trade : t.Trade m f) (sound : t.Sound) (awaited : t.Awaited)
    (sent : (id, block) ∈ t.handsOut m) (now : Nat) : ∃ who deadline,
      (who, .request id deadline .empty) ∈ t.calls ∧
      (who, .request id deadline (.handed block)) ∈ (f.traffic now).calls := by
  have told := trade.mem_handsOut.mp sent
  obtain ⟨-, w, hw, rfl, once, -⟩ := trade.told sound told
  obtain ⟨who, deadline, listed⟩ := awaited w hw once
  exact ⟨who, deadline, listed, (trade.handed_on sound listed told).2⟩

theorem Outcome.slot_next (outcome : t.Outcome m f) (trade : t.Trade m f) (sound : t.Sound)
    (awaited : t.Awaited) {slot : Slot}
    (found : (who, .request id deadline slot) ∈ (f.traffic now).calls) :
    (∃ old, (who, .request id deadline old) ∈ t.calls ∧ (slot = old ∨ f.buffer.Gone id) ∧
      ∀ block, slot = .handed block ↔ old = .handed block ∨ (id, block) ∈ t.handsOut m) ∨
    id = t.buffer.nextId ∧ slot = .empty ∧ ∀ block, (id, block) ∉ t.handsOut m := by
  have after := outcome.sound sound now
  have holds {block : Block} (sent : (id, block) ∈ t.handsOut m) : slot = .handed block := by
    obtain ⟨taker, _, -, there⟩ := trade.taker sound awaited sent now
    obtain rfl := after.alone _ _ _ _ _ _ _ found there
    cases after.call_unique found there
    rfl
  rcases mem_effect_calls.mp found with kept | new
  · obtain ⟨old, stayed, how⟩ := request_of_heard kept
    have listed := outcome.call_cases stayed
    refine .inl ⟨old, listed, ?_, fun block => ⟨fun same => ?_, fun from_ => ?_⟩⟩
    · obtain same | ⟨-, ⟨block, -, told⟩ | ⟨-, told⟩⟩ := how
      · exact .inl same
      · exact .inr (outcome.gone_of_told trade sound told)
      · exact .inr (outcome.gone_of_released sound (sound.issued _ _ _ _ listed) told)
    · subst same
      obtain same | ⟨-, ⟨_, same, told⟩ | ⟨same, -⟩⟩ := how
      · exact .inl same.symm
      · exact .inr (trade.mem_handsOut.mpr (Slot.handed.inj same ▸ told))
      · contradiction
    · obtain rfl | sent := from_
      · obtain same | ⟨empty, -⟩ := how
        · exact same
        · contradiction
      · exact holds sent
  · obtain ⟨_, _, -, -, fresh, empty, -⟩ := outcome.added_request new
    refine .inr ⟨fresh, empty, fun block sent => ?_⟩
    cases empty.symm.trans (holds sent)

theorem Outcome.request_on (outcome : t.Outcome m f) {slot : Slot}
    (listed : (who, .request id deadline slot) ∈ t.calls) :
    (∃ slot', (who, .request id deadline slot') ∈ (f.traffic now).calls) ∨
      m = .resume who ∨ m = .cancel who := by
  refine (outcome.kept_cases listed).imp_left fun stays => ?_
  obtain ⟨slot', heard, -⟩ := Call.request_heard id deadline slot f.notices
  exact ⟨slot', mem_effect_calls.mpr (.inl (mem_heard.mpr ⟨_, stays, heard.symm⟩))⟩

omit [DecidableEq κ] in
theorem attemptPut_filed {answer : Answer}
    (ok : (t.attemptPut who block deadline).answer = some (.ok answer)) :
    ∃ b ns, t.buffer.tryInsert block = .filed b ns ∧
      t.attemptPut who block deadline = t.finish b ns (.ok (.block block)) := by
  rw [attemptPut] at ok ⊢
  split at ok
  · cases ok
  · rename_i b ns tried
    exact ⟨b, ns, tried, rfl⟩
  · split at ok
    · cases ok
    · cases ok

theorem step_of_inserts (inserts : t.inserts? m = some block) :
    ∃ putter deadline kept b ns, t.Puts m putter block deadline kept ∧
      t.buffer.tryInsert block = .filed b ns ∧
      t.step m = ({ t with calls := kept } : Traffic κ).finish b ns (.ok (.block block)) := by
  rw [Traffic.inserts?] at inserts
  split at inserts
  · rename_i answer ok
    cases m with
    | put putter other =>
      obtain rfl := Option.some.inj inserts
      by_cases free : t.call? putter = none
      · have begun : t.step (.put putter other) =
            t.attemptPut putter other (t.now + t.buffer.config.putTimeout) := begin_free free _
        rw [begun] at ok ⊢
        obtain ⟨b, ns, tried, eq⟩ := attemptPut_filed ok
        exact ⟨putter, _, t.calls, b, ns, .begun free, tried, eq⟩
      · rw [step, begin, if_pos (Option.isSome_iff_ne_none.mpr free)] at ok
        contradiction
    | resume putter =>
      rw [putBlock?] at inserts
      split at inserts
      · rename_i other deadline woken waits
        obtain rfl := Option.some.inj inserts
        have resumed : t.step (.resume putter) = t.resume putter := rfl
        rw [resumed] at ok ⊢
        rw [resume_put waits] at ok ⊢
        cases woken with
        | true =>
          rw [if_pos rfl] at ok ⊢
          obtain ⟨b, ns, tried, eq⟩ := attemptPut_filed ok
          exact ⟨putter, _, _, b, ns, .resumed waits, tried, eq⟩
        | false =>
          rw [if_neg Bool.false_ne_true] at ok
          split at ok
          · cases ok
          · cases ok
      · contradiction
    | _ => contradiction
  · contradiction

omit [DecidableEq κ] in
theorem woken_of_heard {call : Call} (listed : (who, call) ∈ t.calls) {ns : List Notice}
    (changed : call.heard ns ≠ call) : who ∈ (t.hearAll ns).2 := by
  induction ns generalizing t with
  | nil => exact absurd rfl changed
  | cons n rest ih =>
    show who ∈ (t.hear n).2 ++ ((t.hear n).1.hearAll rest).2
    rw [List.mem_append]
    cases heard : call.hear? n with
    | some call' => exact .inl (List.mem_filterMap.mpr ⟨_, listed, by rw [heard]; rfl⟩)
    | none =>
      rw [Call.heard, heard] at changed
      exact .inr (ih (List.mem_map.mpr ⟨_, listed, by rw [heard]; rfl⟩) changed)

theorem Awaited.handsOut (awaited : t.Awaited) (sound : t.Sound)
    (sent : (id, block) ∈ t.handsOut m) : ∃ who deadline,
      (who, .request id deadline .empty) ∈ t.calls ∧
      (who, .request id deadline (.handed block)) ∈ (t.step m).traffic.calls ∧
      who ∈ (t.step m).woken := by
  obtain ⟨f, outcome, shows⟩ := t.step_explained m
  have trade := outcome.trade shows.answer
  have inserts := (trade.told sound (trade.mem_handsOut.mp sent)).1
  obtain ⟨who, deadline, listed, there⟩ :=
    trade.taker sound awaited sent (t.now + m.duration)
  refine ⟨who, deadline, listed, shows.traffic ▸ there, ?_⟩
  obtain ⟨putter, due, kept, b, ns, puts, tried, eq⟩ := step_of_inserts inserts
  rw [eq]
  have filed := filed_of_tryInsert sound tried
  have told : .handed id block ∈ ns := by
    rw [Traffic.handsOut, inserts, Option.map_some, tried, List.mem_filterMap] at sent
    obtain ⟨n, told, here⟩ := sent
    cases n with
    | handed =>
      obtain ⟨rfl, rfl⟩ := Prod.mk.inj (Option.some.inj here)
      exact told
    | space | claimed | released => contradiction
  obtain ⟨other, heard⟩ := Call.handed_of_told deadline told (filed.unreleased id)
  refine woken_of_heard (t := { t with calls := kept, buffer := b })
    (puts.keeps_request sound listed) ?_
  rw [heard]
  exact fun same => by cases same

end Traffic

end NamedContent
