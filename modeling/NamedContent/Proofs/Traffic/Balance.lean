import Mathlib
import NamedContent.Proofs.Traffic.Account

/-!
# Every delivery is that of an insertion

Entries and handed blocks come from numbered insertions, and so do all
receipts. Whoever waits is known by what it asked for last, so a block that is
handed over is one that was asked for.
-/

set_option autoImplicit false

namespace NamedContent

def Backed (inserted : List Block) (asked : Option Interest) (source : Option Nat)
    (block : Block) : Prop :=
  ∃ interest n, asked = some interest ∧ source = some n ∧ inserted[n]? = some block ∧
    interest.accepts block.name = true

theorem Backed.append {inserted : List Block} {asked : Option Interest} {source : Option Nat}
    {block : Block} (h : Backed inserted asked source block) (more : List Block) :
    Backed (inserted ++ more) asked source block := by
  obtain ⟨interest, n, asked, source, found, accepts⟩ := h
  obtain ⟨inside, -⟩ := List.getElem?_eq_some_iff.mp found
  exact ⟨interest, n, asked, source, by rwa [List.getElem?_append_left inside], accepts⟩

theorem Backed.lt {inserted : List Block} {asked : Option Interest} {n : Nat} {block : Block}
    (h : Backed inserted asked (some n) block) : n < inserted.length := by
  obtain ⟨_, n', -, same, found, -⟩ := h
  obtain rfl := Option.some.inj same
  exact (List.getElem?_eq_some_iff.mp found).1

/-- The receipt names an insertion of its block before it was written, and the
block is one that was asked for. -/
def Receipt.Valid (r : Receipt) (inserted : List Block) : Prop :=
  Backed inserted r.interest r.insertion r.block ∧ ∃ n < r.earlier, r.insertion = some n

namespace Traffic

variable {κ : Type} [DecidableEq κ] {t : Traffic κ} {m : Move κ} {f : Effect κ} {a : Account κ}
  {now : Nat}

theorem Outcome.added_request (outcome : t.Outcome m f) {who : κ} {id deadline : Nat} {slot : Slot}
    (found : (who, .request id deadline slot) ∈ f.added) :
    ∃ interest timeout, m = .request who interest timeout ∧ t.call? who = none ∧
      id = t.buffer.nextId ∧ slot = .empty ∧ f.buffer = t.buffer.enroll interest .once := by
  cases outcome with
  | parked free =>
    cases List.mem_singleton.mp found
    exact ⟨_, _, rfl, free, rfl, rfl, rfl⟩
  | blocked => cases List.mem_singleton.mp found
  | rested => cases List.mem_singleton.mp found
  | closing => cases List.mem_singleton.mp found
  | _ => contradiction

theorem Outcome.handed_cases (outcome : t.Outcome m f) {who : κ} {id deadline : Nat}
    {block : Block} (found : (who, .request id deadline (.handed block)) ∈ (f.traffic now).calls) :
    (who, .request id deadline (.handed block)) ∈ f.kept ∨
      (who, .request id deadline .empty) ∈ f.kept ∧ .handed id block ∈ f.notices := by
  rcases mem_effect_calls.mp found with old | new
  · obtain ⟨slot, listed, same | ⟨empty, ⟨block', same, told⟩ | ⟨released, -⟩⟩⟩ :=
      request_of_heard old
    · exact .inl (same ▸ listed)
    · obtain rfl := Slot.handed.inj same
      exact .inr ⟨empty ▸ listed, told⟩
    · contradiction
  · obtain ⟨_, _, -, -, -, empty, -⟩ := outcome.added_request new
    contradiction

theorem slot?_eq_some (sound : t.Sound) {who : κ} {slot : Slot} :
    t.slot? who = some slot ↔ ∃ id deadline, (who, .request id deadline slot) ∈ t.calls := by
  rw [slot?]
  constructor
  · intro found
    split at found
    · rename_i id deadline slot' waits
      obtain rfl := Option.some.inj found
      exact ⟨id, deadline, mem_of_call? waits⟩
    · contradiction
  · intro found
    obtain ⟨id, deadline, listed⟩ := found
    rw [sound.call?_eq_some.mpr listed]

theorem handsTo_iff (sound : t.Sound) {who : κ} : t.handsTo m who = true ↔
    (∃ id deadline, (who, .request id deadline .empty) ∈ t.calls) ∧
      ∃ id deadline block,
        (who, .request id deadline (.handed block)) ∈ (t.step m).traffic.calls := by
  have after := step_sound sound m
  rw [handsTo]
  constructor
  · intro hands
    split at hands
    · rename_i block before filled
      obtain ⟨id, deadline, listed⟩ := (slot?_eq_some after).mp filled
      exact ⟨(slot?_eq_some sound).mp before, id, deadline, block, listed⟩
    · contradiction
  · intro hands
    obtain ⟨before, id, deadline, block, listed⟩ := hands
    rw [(slot?_eq_some sound).mpr before, (slot?_eq_some after).mpr ⟨id, deadline, listed⟩]

theorem askedAfter_of_call {who : κ} {call : Call} (listed : (who, call) ∈ t.calls) :
    a.askedAfter t m who = a.asked who := by
  cases m with
  | request who' interest timeout =>
    rw [Account.askedAfter]
    split
    · rfl
    · rename_i free
      apply Function.update_of_ne
      rintro rfl
      apply call?_eq_none.mp (by simpa using free)
      exact List.mem_map_of_mem listed
  | _ => rfl

theorem askedAfter_request {who : κ} {interest : Interest} {timeout : Nat}
    (free : t.call? who = none) :
    a.askedAfter t (.request who interest timeout) who = some interest := by
  rw [Account.askedAfter, free]
  exact Function.update_self _ _ _

theorem custody_of_handed (sound : t.Sound) {who : κ} {id deadline : Nat} {block : Block}
    (listed : (who, .request id deadline (.handed block)) ∈ t.calls) :
    (a.next t m).custody who = a.custody who := by
  apply if_neg
  intro hands
  obtain ⟨⟨_, _, empty⟩, -⟩ := (handsTo_iff sound).mp hands
  cases sound.call_unique listed empty

theorem custody_of_new (sound : t.Sound) {who : κ} {id deadline id' deadline' : Nat} {block : Block}
    (before : (who, .request id deadline .empty) ∈ t.calls)
    (after : (who, .request id' deadline' (.handed block)) ∈ (t.step m).traffic.calls) :
    (a.next t m).custody who = some a.inserted.length :=
  if_pos ((handsTo_iff sound).mpr ⟨⟨id, deadline, before⟩, id', deadline', block, after⟩)

section Trade

omit [DecidableEq κ] in
theorem filed_of_tryInsert (sound : t.Sound) {block : Block} {b : Buffer} {ns : List Notice}
    (tried : t.buffer.tryInsert block = .filed b ns) :
    (t.buffer.makeRoom block.name).Filed block b ns :=
  Buffer.file_filed (Buffer.makeRoom_consistent sound.buffer _) (Buffer.tryInsert_filed tried).2.2.2

theorem deliveryNotices_unhanded (b : Buffer) (id : Nat) (block : Block) :
    .handed id block ∉ b.deliveryNotices := by
  rw [Buffer.deliveryNotices]
  split <;> simp

theorem Trade.told (trade : t.Trade m f) (sound : t.Sound) {id : Nat} {block : Block}
    (told : .handed id block ∈ f.notices) : t.inserts? m = some block ∧
      ∃ w ∈ t.buffer.pending, w.id = id ∧ w.demand = .once ∧
        w.interest.accepts block.name = true := by
  cases trade with
  | files puts tried _ inserts =>
    obtain ⟨rfl, w, hw, who⟩ := (filed_of_tryInsert sound tried).handed id block told
    rw [Buffer.makeRoom_pending] at hw
    exact ⟨inserts, w, hw, who⟩
  | serves _ _ _ _ notices =>
    rw [notices] at told
    exact absurd told (deliveryNotices_unhanded _ _ _)
  | fetches _ _ _ _ notices =>
    rw [notices] at told
    contradiction
  | neither calm => exact absurd told (calm.unhanded id block)

theorem Trade.count (trade : t.Trade m f) (sound : t.Sound) :
    f.buffer.nextOrder = t.buffer.nextOrder + (t.inserts? m).toList.length := by
  cases trade with
  | files puts tried _ inserts =>
    rw [(filed_of_tryInsert sound tried).nextOrder, Buffer.makeRoom_nextOrder, inserts]
    rfl
  | serves _ _ taken _ _ _ inserts =>
    obtain ⟨e, -, -, -, buffer⟩ := Buffer.take?_eq_some sound.buffer taken
    rw [buffer, inserts]
    rfl
  | fetches _ _ _ buffer _ _ inserts =>
    rw [buffer, inserts]
    rfl
  | neither calm inserts =>
    rw [calm.order, inserts]
    rfl

theorem Trade.pending (trade : t.Trade m f) (sound : t.Sound) {w : Waiter}
    (hw : w ∈ f.buffer.pending) (once : w.demand = .once) :
    w ∈ t.buffer.pending ∨ w.id = t.buffer.nextId := by
  cases trade with
  | files puts tried =>
    have old := ((filed_of_tryInsert sound tried).once w once).mp hw
    rw [Buffer.makeRoom_pending] at old
    exact .inl old.1
  | serves _ _ taken =>
    obtain ⟨e, -, -, -, buffer⟩ := Buffer.take?_eq_some sound.buffer taken
    rw [buffer] at hw
    exact .inl hw
  | fetches _ _ _ buffer => exact .inl (buffer ▸ hw)
  | neither calm => exact calm.pending w hw

theorem Trade.entries (trade : t.Trade m f) (sound : t.Sound) {name : Name} {e' : Entry}
    (listed' : (name, e') ∈ f.buffer.entries.toList) :
    (∃ e, (name, e) ∈ t.buffer.entries.toList ∧ e'.order = e.order ∧ e'.block = e.block ∧
      ∀ block, t.inserts? m = some block → block.name ≠ name) ∨
      t.inserts? m = some e'.block ∧ e'.order = t.buffer.nextOrder ∧ name = e'.block.name := by
  cases trade with
  | files puts tried _ inserts =>
    rw [(filed_of_tryInsert sound tried).entries] at listed'
    rcases Table.mem_insert.mp listed' with new | ⟨old, other⟩
    · obtain ⟨rfl, rfl⟩ := Prod.mk.inj new
      exact .inr ⟨inserts, Buffer.makeRoom_nextOrder _ _, rfl⟩
    · refine .inl ⟨e', Buffer.mem_of_makeRoom old, rfl, rfl, fun block inserts' => ?_⟩
      cases inserts.symm.trans inserts'
      exact Ne.symm other
  | serves _ _ taken _ _ _ none =>
    obtain ⟨e, listed, -, -, buffer⟩ := Buffer.take?_eq_some sound.buffer taken
    rw [buffer] at listed'
    rcases Table.mem_insert.mp listed' with new | ⟨old, -⟩
    · obtain ⟨rfl, rfl⟩ := Prod.mk.inj new
      exact .inl ⟨e, listed, rfl, rfl, by simp [none]⟩
    · exact .inl ⟨e', old, rfl, rfl, by simp [none]⟩
  | fetches _ _ _ buffer _ _ none =>
    exact .inl ⟨e', buffer ▸ listed', rfl, rfl, by simp [none]⟩
  | neither calm none => exact .inl ⟨e', calm.entries _ listed', rfl, rfl, by simp [none]⟩

end Trade

/-- The account matches the traffic: entries and handed blocks are backed by
their insertions, and so are the receipts. -/
structure Balanced (t : Traffic κ) (a : Account κ) : Prop where
  count : a.inserted.length = t.buffer.nextOrder
  entries : ∀ name e, (name, e) ∈ t.buffer.entries.toList → a.inserted[e.order]? = some e.block
  distinct : ∀ name e name' e', (name, e) ∈ t.buffer.entries.toList →
    (name', e') ∈ t.buffer.entries.toList → e.order = e'.order → name = name'
  waiting : ∀ who id deadline, (who, .request id deadline .empty) ∈ t.calls →
    ∀ w ∈ t.buffer.pending, w.demand = .once → w.id = id → a.asked who = some w.interest
  handed : ∀ who id deadline block, (who, .request id deadline (.handed block)) ∈ t.calls →
    Backed a.inserted (a.asked who) (a.custody who) block
  receipts : ∀ r ∈ a.receipts, r.Valid a.inserted

omit [DecidableEq κ] in
theorem ofConfig_balanced (config : Buffer.Config) :
    (ofConfig config : Traffic κ).Balanced Account.empty where
  count := rfl
  entries := by
    intro name e listed
    contradiction
  distinct := by
    intro name e name' e' listed
    contradiction
  waiting := by
    intro who id deadline listed
    contradiction
  handed := by
    intro who id deadline block listed
    contradiction
  receipts := by
    intro r hr
    contradiction

omit [DecidableEq κ] in
theorem Balanced.order_lt (h : t.Balanced a) {name : Name} {e : Entry}
    (listed : (name, e) ∈ t.buffer.entries.toList) : e.order < a.inserted.length :=
  (List.getElem?_eq_some_iff.mp (h.entries name e listed)).1

theorem next_inserted : (a.next t m).inserted = a.inserted ++ (t.inserts? m).toList := rfl

theorem next_inserted_last {block : Block} (inserts : t.inserts? m = some block) :
    (a.next t m).inserted[a.inserted.length]? = some block := by
  rw [next_inserted, inserts, List.getElem?_append_right (Nat.le_refl _), Nat.sub_self]
  rfl

theorem Outcome.call_cases (outcome : t.Outcome m f) {c : κ × Call} (kept : c ∈ f.kept) :
    c ∈ t.calls :=
  outcome.kept_sublist.subset kept

theorem Outcome.waiting_next (outcome : t.Outcome m f) (trade : t.Trade m f) (sound : t.Sound)
    (h : t.Balanced a) {who : κ} {id deadline : Nat}
    (found : (who, .request id deadline .empty) ∈ (f.traffic now).calls) {w : Waiter}
    (hw : w ∈ f.buffer.pending) (once : w.demand = .once) (same : w.id = id) :
    (a.next t m).asked who = some w.interest := by
  rcases mem_effect_calls.mp found with old | new
  · obtain ⟨slot, listed, same_slot | ⟨-, ⟨_, filled, -⟩ | ⟨filled, -⟩⟩⟩ := request_of_heard old
    · subst same_slot
      have before := outcome.call_cases listed
      show a.askedAfter t m who = _
      rw [askedAfter_of_call before]
      obtain hw | fresh := trade.pending sound hw once
      · exact h.waiting who id deadline before w hw once same
      · -- the id of a call that waited before is below the one given out now
        have issued := sound.issued _ _ _ _ before
        omega
    · contradiction
    · contradiction
  · obtain ⟨interest, timeout, rfl, free, rfl, -, buffer⟩ := outcome.added_request new
    show a.askedAfter t (.request who interest timeout) who = _
    rw [askedAfter_request free]
    rw [buffer] at hw
    rcases List.mem_append.mp hw with old | enrolled
    · -- nobody who waited before has the id of the new request
      have below := sound.buffer.below w old
      omega
    · rw [List.mem_singleton.mp enrolled]

theorem Outcome.handed_next (outcome : t.Outcome m f) (trade : t.Trade m f) (sound : t.Sound)
    (h : t.Balanced a) (traffic : (t.step m).traffic = f.traffic now) {who : κ} {id deadline : Nat}
    {block : Block} (found : (who, .request id deadline (.handed block)) ∈ (f.traffic now).calls) :
    Backed (a.next t m).inserted ((a.next t m).asked who) ((a.next t m).custody who) block := by
  obtain old | ⟨empty, told⟩ := outcome.handed_cases found
  · have before := outcome.call_cases old
    rw [custody_of_handed sound before]
    show Backed _ (a.askedAfter t m who) _ _
    rw [askedAfter_of_call before]
    exact (h.handed who id deadline block before).append _
  · have before := outcome.call_cases empty
    obtain ⟨inserts, w, hw, same, once, accepts⟩ := trade.told sound told
    rw [custody_of_new sound before (traffic ▸ found)]
    show Backed _ (a.askedAfter t m who) _ _
    rw [askedAfter_of_call before, h.waiting who id deadline before w hw once same]
    exact ⟨w.interest, _, rfl, rfl, next_inserted_last inserts, accepts⟩

omit [DecidableEq κ] in
theorem source?_of_listed {e : Entry} (listed : (e.block.name, e) ∈ t.buffer.entries.toList)
    {who : κ} {interest : Interest} {timeout : Nat} :
    a.source? t (.request who interest timeout) e.block = some e.order := by
  show (t.buffer.entries.find? e.block.name).map (·.order) = some e.order
  rw [Table.find?_eq_some.mpr listed]
  rfl

theorem Trade.backed (trade : t.Trade m f) (sound : t.Sound) (h : t.Balanced a) {who : κ}
    {block : Block} (returns : t.returns? m = some (who, block)) :
    Backed a.inserted (a.askedAfter t m who) (a.source? t m block) block := by
  obtain ⟨interest, timeout, rfl, free, taken⟩ | ⟨id, deadline, rfl, waits, -⟩ :=
    trade.of_returns returns
  · obtain ⟨e, listed, available, rfl, -⟩ := Buffer.take?_eq_some sound.buffer taken
    rw [Buffer.isAvailable, Bool.and_eq_true] at available
    exact ⟨interest, e.order, askedAfter_request free, source?_of_listed listed,
      h.entries _ e listed, available.1⟩
  · exact h.handed who id deadline block (mem_of_call? waits)

theorem Outcome.balanced (outcome : t.Outcome m f) (trade : t.Trade m f) (sound : t.Sound)
    (h : t.Balanced a) (traffic : (t.step m).traffic = f.traffic now) :
    (f.traffic now).Balanced (a.next t m) where
  count := by
    show _ = f.buffer.nextOrder
    rw [next_inserted, List.length_append, h.count, trade.count sound]
  entries := by
    intro name e' listed'
    obtain ⟨e, listed, order, block, -⟩ | ⟨inserts, order, -⟩ := trade.entries sound listed'
    · rw [order, block, next_inserted, List.getElem?_append_left (h.order_lt listed)]
      exact h.entries name e listed
    · rw [order, ← h.count]
      exact next_inserted_last inserts
  distinct := by
    intro name e₁ name' e₂ listed₁ listed₂ same
    obtain ⟨e, listed, order, -⟩ | ⟨inserts, order, here⟩ := trade.entries sound listed₁
    · obtain ⟨e', listed', order', -⟩ | ⟨-, order', -⟩ := trade.entries sound listed₂
      · exact h.distinct name e name' e' listed listed' (by omega)
      · have below := h.order_lt listed
        have count := h.count
        omega
    · obtain ⟨e', listed', order', -⟩ | ⟨inserts', -, here'⟩ := trade.entries sound listed₂
      · have below := h.order_lt listed'
        have count := h.count
        omega
      · rw [inserts] at inserts'
        rw [here, here', Option.some.inj inserts']
  waiting := by
    intro who id deadline found w hw once same
    exact outcome.waiting_next trade sound h found hw once same
  handed := by
    intro who id deadline block found
    exact outcome.handed_next trade sound h traffic found
  receipts := by
    intro r hr
    rcases List.mem_append.mp hr with old | new
    · obtain ⟨backed, earlier⟩ := h.receipts r old
      exact ⟨backed.append _, earlier⟩
    · obtain ⟨⟨who, block⟩, returns, rfl⟩ := Option.map_eq_some_iff.mp (Option.mem_toList.mp new)
      have backed := trade.backed sound h returns
      refine ⟨backed.append _, ?_⟩
      obtain ⟨_, n, -, source, found, -⟩ := backed
      exact ⟨n, (List.getElem?_eq_some_iff.mp found).1, source⟩

end Traffic

end NamedContent
