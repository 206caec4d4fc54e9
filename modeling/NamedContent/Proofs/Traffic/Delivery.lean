import Mathlib
import NamedContent.Proofs.Traffic.Balance

/-!
# No insertion is delivered twice

In best-effort mode an insertion is spent when its block goes to a request,
and an entry that nobody has had is not spent. So all receipts name different
insertions.
-/

set_option autoImplicit false

namespace NamedContent

namespace Traffic

variable {κ : Type} [DecidableEq κ] {t : Traffic κ} {m : Move κ} {f : Effect κ} {a : Account κ}
  {now : Nat}

section BestEffort

def Holds (t : Traffic κ) (who : κ) : Prop :=
  ∃ id deadline block, (who, .request id deadline (.handed block)) ∈ t.calls

def Spent (t : Traffic κ) (a : Account κ) (n : Nat) : Prop :=
  some n ∈ a.receipts.map Receipt.insertion ∨ ∃ who, t.Holds who ∧ a.custody who = some n

/-- No insertion goes to two requests. -/
structure Unshared (t : Traffic κ) (a : Account κ) : Prop where
  unread : ∀ name e, (name, e) ∈ t.buffer.entries.toList → e.deliveries = 0 → ¬t.Spent a e.order
  held : ∀ who who', t.Holds who → t.Holds who' → a.custody who = a.custody who' → who = who'
  unwritten : ∀ who, t.Holds who → a.custody who ∉ a.receipts.map Receipt.insertion
  once : (a.receipts.map Receipt.insertion).Nodup

omit [DecidableEq κ] in
theorem ofConfig_unshared (config : Buffer.Config) :
    (ofConfig config : Traffic κ).Unshared Account.empty where
  unread := by
    intro name e listed
    contradiction
  held := by
    intro who who' holds
    obtain ⟨_, _, _, listed⟩ := holds
    contradiction
  unwritten := by
    intro who holds
    obtain ⟨_, _, _, listed⟩ := holds
    contradiction
  once := List.nodup_nil

omit [DecidableEq κ] in
theorem Balanced.custody_lt (h : t.Balanced a) {who : κ} (holds : t.Holds who) :
    ∃ n, a.custody who = some n ∧ n < a.inserted.length := by
  obtain ⟨id, deadline, block, listed⟩ := holds
  obtain ⟨_, n, -, source, found, -⟩ := h.handed who id deadline block listed
  exact ⟨n, source, (List.getElem?_eq_some_iff.mp found).1⟩

omit [DecidableEq κ] in
theorem Balanced.spent_lt (h : t.Balanced a) {n : Nat} (spent : t.Spent a n) :
    n < a.inserted.length := by
  obtain written | ⟨who, holds, custody⟩ := spent
  · obtain ⟨r, hr, insertion⟩ := List.mem_map.mp written
    have backed := (h.receipts r hr).1
    rw [insertion] at backed
    exact backed.lt
  · obtain ⟨n', custody', below⟩ := h.custody_lt holds
    rw [custody] at custody'
    exact Option.some.inj custody' ▸ below

theorem next_insertions : (a.next t m).receipts.map Receipt.insertion =
    a.receipts.map Receipt.insertion ++
      ((t.returns? m).map fun r => a.source? t m r.2).toList := by
  show List.map _ (a.receipts ++ _) = _
  rw [List.map_append]
  cases t.returns? m <;> rfl

theorem Outcome.holds_cases (outcome : t.Outcome m f) (sound : t.Sound)
    (traffic : (t.step m).traffic = f.traffic now) {who : κ} (holds : (f.traffic now).Holds who) :
    (t.Holds who ∧ who ∈ f.kept.map Prod.fst ∧ (a.next t m).custody who = a.custody who) ∨
      (a.next t m).custody who = some a.inserted.length ∧
        ∃ id deadline block, (who, .request id deadline .empty) ∈ t.calls ∧
          .handed id block ∈ f.notices := by
  obtain ⟨id, deadline, block, found⟩ := holds
  obtain old | ⟨empty, told⟩ := outcome.handed_cases found
  · have before := outcome.call_cases old
    exact .inl ⟨⟨id, deadline, block, before⟩, List.mem_map_of_mem old,
      custody_of_handed sound before⟩
  · have before := outcome.call_cases empty
    exact .inr ⟨custody_of_new sound before (traffic ▸ found), id, deadline, block, before, told⟩

theorem Outcome.spent_next (outcome : t.Outcome m f) (sound : t.Sound)
    (traffic : (t.step m).traffic = f.traffic now) {n : Nat}
    (spent : (f.traffic now).Spent (a.next t m) n) :
    t.Spent a n ∨ (n = a.inserted.length ∧ ∃ id block, .handed id block ∈ f.notices) ∨
      ∃ who block, t.returns? m = some (who, block) ∧ a.source? t m block = some n := by
  obtain written | ⟨who, holds, custody⟩ := spent
  · rw [next_insertions, List.mem_append] at written
    obtain old | new := written
    · exact .inl (.inl old)
    · obtain ⟨⟨who, block⟩, returns, source⟩ :=
        Option.map_eq_some_iff.mp (Option.mem_toList.mp new)
      exact .inr (.inr ⟨who, block, returns, source⟩)
  · obtain ⟨held, -, same⟩ | ⟨new, id, _, block, -, told⟩ := outcome.holds_cases sound traffic holds
    · exact .inl (.inr ⟨who, held, same ▸ custody⟩)
    · rw [new] at custody
      exact .inr (.inl ⟨(Option.some.inj custody).symm, id, block, told⟩)

omit [DecidableEq κ] in
theorem Balanced.not_spent_length (h : t.Balanced a) : ¬t.Spent a a.inserted.length :=
  fun spent => Nat.lt_irrefl _ (h.spent_lt spent)

theorem Outcome.old_unspent (outcome : t.Outcome m f) (sound : t.Sound) (h : t.Balanced a)
    (unshared : t.Unshared a) (traffic : (t.step m).traffic = f.traffic now) {name : Name}
    {e : Entry} (listed : (name, e) ∈ t.buffer.entries.toList) (unread : e.deliveries = 0)
    (other : ∀ who block, t.returns? m = some (who, block) →
      a.source? t m block ≠ some e.order) : ¬(f.traffic now).Spent (a.next t m) e.order := by
  intro spent
  obtain before | ⟨last, -⟩ | ⟨who, block, returns, source⟩ :=
    outcome.spent_next sound traffic spent
  · exact unshared.unread name e listed unread before
  · have below := h.order_lt listed
    omega
  · exact other who block returns source

theorem Outcome.unread_next (outcome : t.Outcome m f) (trade : t.Trade m f) (sound : t.Sound)
    (best : t.buffer.bestEffort = true) (h : t.Balanced a) (unshared : t.Unshared a)
    (traffic : (t.step m).traffic = f.traffic now) {name : Name} {e' : Entry}
    (listed' : (name, e') ∈ f.buffer.entries.toList) (unread : e'.deliveries = 0) :
    ¬(f.traffic now).Spent (a.next t m) e'.order := by
  have old_unspent (listed : (name, e') ∈ t.buffer.entries.toList) :=
    outcome.old_unspent sound h unshared traffic listed unread
  cases trade with
  | @files _ block _ puts tried _ _ none =>
    have nothing : ∀ who block, t.returns? m = some (who, block) →
        a.source? t m block ≠ some e'.order := by
      intro who block returns
      rw [none] at returns
      contradiction
    have filed := filed_of_tryInsert sound tried
    rw [filed.entries] at listed'
    rcases Table.mem_insert.mp listed' with new | ⟨old, -⟩
    · obtain ⟨rfl, rfl⟩ := Prod.mk.inj new
      have order : ((t.buffer.makeRoom block.name).newEntry block).order = a.inserted.length :=
        (Buffer.makeRoom_nextOrder t.buffer _).trans h.count.symm
      intro spent
      obtain before | ⟨-, id, block, told⟩ | ⟨who, block, returns, source⟩ :=
        outcome.spent_next sound traffic spent
      · exact h.not_spent_length (order ▸ before)
      · -- whoever is handed the block is counted as its reader
        exact filed.counted id block told unread
      · exact nothing who block returns source
    · exact old_unspent (Buffer.mem_of_makeRoom old) nothing
  | serves move free taken _ _ _ _ here =>
    obtain ⟨e, listed, available, rfl, buffer⟩ := Buffer.take?_eq_some sound.buffer taken
    rw [buffer] at listed'
    rcases Table.mem_insert.mp listed' with new | ⟨old, apart⟩
    · -- the entry that is served has its first reader now
      obtain ⟨rfl, rfl⟩ := Prod.mk.inj new
      simp [Entry.afterRead, Buffer.unread_of_available best available, UInt32.size] at unread
    · apply old_unspent old
      intro who block returns source
      rw [here] at returns
      obtain ⟨rfl, rfl⟩ := Prod.mk.inj (Option.some.inj returns)
      subst move
      rw [source?_of_listed listed] at source
      exact apart (h.distinct _ _ _ _ old listed (Option.some.inj source).symm)
  | fetches move waits _ buffer _ _ _ here =>
    have listed : (name, e') ∈ t.buffer.entries.toList := buffer ▸ listed'
    apply old_unspent listed
    intro who block returns source
    subst move
    exact unshared.unread name e' listed unread
      (.inr ⟨_, ⟨_, _, _, mem_of_call? waits⟩, source⟩)
  | neither calm _ none =>
    apply old_unspent (calm.entries _ listed')
    intro who block returns
    rw [none] at returns
    contradiction

theorem Trade.source_fresh (trade : t.Trade m f) (sound : t.Sound)
    (best : t.buffer.bestEffort = true) (unshared : t.Unshared a) {who : κ} {block : Block}
    (returns : t.returns? m = some (who, block)) :
    a.source? t m block ∉ a.receipts.map Receipt.insertion ∧
      ∀ other ∈ f.kept.map Prod.fst, t.Holds other → a.custody other ≠ a.source? t m block := by
  obtain ⟨interest, timeout, rfl, free, taken⟩ | ⟨id, deadline, rfl, waits, kept⟩ :=
    trade.of_returns returns
  · obtain ⟨e, listed, available, rfl, -⟩ := Buffer.take?_eq_some sound.buffer taken
    have unspent := unshared.unread _ e listed (Buffer.unread_of_available best available)
    rw [source?_of_listed listed]
    constructor
    · intro written
      exact unspent (.inl written)
    · intro other _ holds same
      exact unspent (.inr ⟨other, holds, same⟩)
  · have holds : t.Holds who := ⟨id, deadline, block, mem_of_call? waits⟩
    refine ⟨unshared.unwritten who holds, ?_⟩
    intro other listed holds' same
    rw [unshared.held other who holds' holds same, kept] at listed
    exact t.not_mem_withoutCall who listed

theorem Trade.single (trade : t.Trade m f) (sound : t.Sound) (best : t.buffer.bestEffort = true)
    {id id' : Nat} {block block' : Block} (told : .handed id block ∈ f.notices)
    (told' : .handed id' block' ∈ f.notices) : id = id' := by
  cases trade with
  | files _ tried =>
    apply (filed_of_tryInsert sound tried).single _ id block id' block' told told'
    rw [Buffer.makeRoom_bestEffort, best]
  | serves _ _ _ _ notices =>
    rw [notices] at told
    exact absurd told (deliveryNotices_unhanded _ _ _)
  | fetches _ _ _ _ notices =>
    rw [notices] at told
    contradiction
  | neither calm => exact absurd told (calm.unhanded id block)

theorem Outcome.unshared (outcome : t.Outcome m f) (trade : t.Trade m f) (sound : t.Sound)
    (best : t.buffer.bestEffort = true) (h : t.Balanced a) (unshared : t.Unshared a)
    (traffic : (t.step m).traffic = f.traffic now) :
    (f.traffic now).Unshared (a.next t m) where
  unread := by
    intro name e' listed' unread
    exact outcome.unread_next trade sound best h unshared traffic listed' unread
  held := by
    intro who who' holds holds' same
    obtain ⟨old, -, keeps⟩ | ⟨new, id, _, block, listed, told⟩ :=
      outcome.holds_cases (a := a) sound traffic holds
    · obtain ⟨old', -, keeps'⟩ | ⟨new', -⟩ := outcome.holds_cases (a := a) sound traffic holds'
      · rw [keeps, keeps'] at same
        exact unshared.held who who' old old' same
      · -- what was held before has a smaller number than the new insertion
        obtain ⟨n, custody, below⟩ := h.custody_lt old
        rw [keeps, new', custody] at same
        have last := Option.some.inj same
        omega
    · obtain ⟨old', -, keeps'⟩ | ⟨-, id', _, block', listed', told'⟩ :=
        outcome.holds_cases (a := a) sound traffic holds'
      · obtain ⟨n, custody, below⟩ := h.custody_lt old'
        rw [keeps', new, custody] at same
        have last := Option.some.inj same
        omega
      · obtain rfl := trade.single sound best told told'
        exact sound.alone _ _ _ _ _ _ _ listed listed'
  unwritten := by
    intro who holds written
    rw [next_insertions, List.mem_append] at written
    obtain ⟨old, kept, keeps⟩ | ⟨new, id, _, block, -, told⟩ :=
      outcome.holds_cases (a := a) sound traffic holds
    · rw [keeps] at written
      obtain before | now_written := written
      · exact unshared.unwritten who old before
      · obtain ⟨⟨by_whom, block⟩, returns, source⟩ :=
          Option.map_eq_some_iff.mp (Option.mem_toList.mp now_written)
        exact (trade.source_fresh sound best unshared returns).2 who kept old source.symm
    · -- the new insertion has a number that no receipt can name yet
      rw [new] at written
      obtain before | now_written := written
      · exact h.not_spent_length (.inl before)
      · obtain ⟨⟨by_whom, block⟩, returns, source⟩ :=
          Option.map_eq_some_iff.mp (Option.mem_toList.mp now_written)
        have backed := trade.backed sound h returns
        rw [source] at backed
        exact Nat.lt_irrefl _ backed.lt
  once := by
    rw [next_insertions]
    cases returns : t.returns? m with
    | none => simpa using unshared.once
    | some r =>
      apply unshared.once.append (List.nodup_singleton _)
      intro n before new
      rw [List.mem_singleton.mp new] at before
      exact (trade.source_fresh sound best unshared returns).1 before

end BestEffort

theorem through_invariants {config : Buffer.Config} (sound : t.Sound)
    (same : t.buffer.config = config) (h : t.Balanced a)
    (unshared : config.mode = .bestEffort → t.Unshared a) (ms : List (Move κ)) :
    (t.run ms).Balanced (a.through t ms) ∧
      (config.mode = .bestEffort → (t.run ms).Unshared (a.through t ms)) := by
  induction ms generalizing t a with
  | nil => exact ⟨h, unshared⟩
  | cons m rest ih =>
    obtain ⟨f, outcome, shows⟩ := t.step_explained m
    have trade := outcome.trade shows.answer
    apply ih (step_sound sound m)
    · rw [shows.traffic]
      exact ((outcome.change sound.buffer).config sound.buffer).trans same
    · rw [shows.traffic]
      exact outcome.balanced trade sound h shows.traffic
    · intro mode
      have best : t.buffer.bestEffort = true := by
        rw [Buffer.bestEffort, same, mode]
        rfl
      rw [shows.traffic]
      exact outcome.unshared trade sound best h (unshared mode) shows.traffic

/-- Every block that answers a request is the block of a put that ended well
before, and one that the request accepts. In best-effort mode no insertion
answers two requests. -/
theorem receipts_sound (config : Buffer.Config) (ms : List (Move κ)) :
    let a := Account.empty.through (ofConfig config) ms
    (∀ r ∈ a.receipts, ∃ interest n, r.interest = some interest ∧ r.insertion = some n ∧
      n < r.earlier ∧ a.inserted[n]? = some r.block ∧ interest.accepts r.block.name = true) ∧
    (config.mode = .bestEffort → (a.receipts.map Receipt.insertion).Nodup) := by
  intro a
  obtain ⟨balanced, unshared⟩ := through_invariants (ofConfig_sound config) rfl
    (ofConfig_balanced config) (fun _ => ofConfig_unshared config) ms
  constructor
  · intro r hr
    obtain ⟨⟨interest, n, asked, source, found, accepts⟩, n', earlier, source'⟩ :=
      balanced.receipts r hr
    rw [source] at source'
    obtain rfl := Option.some.inj source'
    exact ⟨interest, n, asked, source, earlier, found, accepts⟩
  · exact fun mode => (unshared mode).once

end Traffic

end NamedContent
