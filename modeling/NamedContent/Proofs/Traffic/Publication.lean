import Mathlib
import NamedContent.Proofs.Name.Segment
import NamedContent.Proofs.Traffic.Fate

/-!
# Segments put in order

A producer puts the segments of one root one after the other, each as soon as
the put before it has ended well. If nobody else puts or removes anything under
the root, then what is in the buffer there are segments of the producer.
-/

set_option autoImplicit false

namespace NamedContent

/-- The segments of one root with their numbers, and who puts them. -/
structure Publication (κ : Type) where
  root : Name
  number : Nat → UInt64
  segment : Nat → Block
  count : Nat
  rising : ∀ j k, j < k → k < count → number j < number k
  named : ∀ k < count, (segment k).name = root.append (.segment (number k))
  producer : κ

namespace Publication

variable {κ : Type} {p : Publication κ} {j k : Nat}

theorem covers (hk : k < p.count) : p.root.isPrefixOf (p.segment k).name = true := by
  rw [p.named k hk]
  exact Name.isPrefixOf_append _ _

theorem isSegment (hk : k < p.count) : (p.segment k).name.isSegment = true := by
  rw [p.named k hk]
  exact Name.isSegment_append _ _

theorem number_lt_iff (hj : j < p.count) (hk : k < p.count) : p.number j < p.number k ↔ j < k := by
  constructor
  · intro less
    rcases Nat.lt_trichotomy j k with before | rfl | after
    · exact before
    · exact absurd less (UInt64.lt_irrefl _)
    · exact absurd less (UInt64.lt_asymm (p.rising k j after hj))
  · exact fun before => p.rising j k before hk

theorem compare_eq_lt_iff (hj : j < p.count) (hk : k < p.count) :
    compare (p.segment j).name (p.segment k).name = .lt ↔ j < k := by
  rw [p.named j hj, p.named k hk, Name.compare_append, Component.compare_segment,
    Std.compare_eq_lt, number_lt_iff hj hk]

theorem eq_of_name (hj : j < p.count) (hk : k < p.count)
    (same : (p.segment j).name = (p.segment k).name) : j = k := by
  rw [p.named j hj, p.named k hk] at same
  have numbers : p.number j = p.number k := by
    have read := congrArg Name.segmentNumber? same
    rw [Name.segmentNumber?_append, Name.segmentNumber?_append] at read
    exact Option.some.inj read
  rcases Nat.lt_trichotomy j k with before | rfl | after
  · exact absurd numbers (UInt64.ne_of_lt (p.rising j k before hk))
  · rfl
  · exact absurd numbers.symm (UInt64.ne_of_lt (p.rising k j after hj))

variable (p)

/-- After `sent` puts only the producer puts under the root, and only the next
segment; nobody removes anything there. -/
def Allows (sent : Nat) : Traffic.Move κ → Prop
  | .put who block => who = p.producer ∧ sent < p.count ∧ block = p.segment sent ∨
      p.root.isPrefixOf block.name = false
  | .remove name => p.root.isPrefixOf name = false
  | .clear => False
  | .close _ => False
  | _ => True

def Buffered (b : Buffer) (j : Nat) : Prop :=
  ∃ e, ((p.segment j).name, e) ∈ b.entries.toList ∧ e.block = p.segment j ∧
    (b.bestEffort = true → e.deliveries = 0)

/-- While puts are taken, after `sent` of them have ended well: what is under the
root has been put, and the put in progress is that of the next segment. -/
structure Underway (t : Traffic κ) (sent : Nat) : Prop where
  accepting : t.buffer.phase = .accepting
  unclosing : t.Unclosing
  sent_le : sent ≤ p.count
  entries : ∀ name e, (name, e) ∈ t.buffer.entries.toList → p.root.isPrefixOf name = true →
    ∃ j < sent, e.block = p.segment j
  puts : ∀ who block deadline woken, (who, .put block deadline woken) ∈ t.calls →
    p.root.isPrefixOf block.name = true →
      who = p.producer ∧ sent < p.count ∧ block = p.segment sent

structure Unbegun (t : Traffic κ) : Prop where
  accepting : t.buffer.phase = .accepting
  entries : ∀ name e, (name, e) ∈ t.buffer.entries.toList → p.root.isPrefixOf name = false
  puts : ∀ who block deadline woken, (who, .put block deadline woken) ∈ t.calls →
    p.root.isPrefixOf block.name = false

variable {p} {t : Traffic κ}

theorem Unbegun.underway (unbegun : p.Unbegun t) (unclosing : t.Unclosing) : p.Underway t 0 where
  accepting := unbegun.accepting
  unclosing := unclosing
  sent_le := Nat.zero_le _
  entries := by
    intro name e listed covered
    rw [unbegun.entries name e listed] at covered
    contradiction
  puts := by
    intro who block deadline woken listed covered
    rw [unbegun.puts who block deadline woken listed] at covered
    contradiction

variable [DecidableEq κ] {m : Traffic.Move κ} {f : Traffic.Effect κ} {now sent sent' : Nat}

/-- A segment counts as put as soon as its put ends well. -/
def sentAfter (p : Publication κ) (sent : Nat) (t : Traffic κ) (m : Traffic.Move κ) : Nat :=
  sent + if (t.inserts? m).any fun block => p.root.isPrefixOf block.name then 1 else 0

def Sends (p : Publication κ) (t : Traffic κ) (m : Traffic.Move κ) (sent sent' : Nat) : Prop :=
  sent' = sent ∧ (∀ block, t.inserts? m = some block → p.root.isPrefixOf block.name = false) ∨
    sent' = sent + 1 ∧ sent < p.count ∧ t.inserts? m = some (p.segment sent)

theorem Underway.putter (h : p.Underway t sent) (allowed : p.Allows sent m) {who : κ}
    {block : Block} {deadline : Nat} {kept : List (κ × Call)}
    (puts : t.Puts m who block deadline kept) (covered : p.root.isPrefixOf block.name = true) :
    who = p.producer ∧ sent < p.count ∧ block = p.segment sent := by
  cases puts with
  | begun =>
    obtain next | elsewhere := allowed
    · exact next
    · rw [elsewhere] at covered
      contradiction
  | resumed waits => exact h.puts _ _ _ _ (Traffic.mem_of_call? waits) covered

theorem Underway.sends (h : p.Underway t sent) (allowed : p.Allows sent m) (trade : t.Trade m f) :
    p.Sends t m sent (p.sentAfter sent t m) := by
  cases inserts : t.inserts? m with
  | none => exact .inl ⟨by simp [sentAfter, inserts], by simp [inserts]⟩
  | some block =>
    cases covered : p.root.isPrefixOf block.name with
    | false => exact .inl ⟨by simp [sentAfter, inserts, covered], by simp [inserts, covered]⟩
    | true =>
      refine .inr ⟨by simp [sentAfter, inserts, covered], ?_⟩
      cases trade with
      | files puts _ _ here =>
        obtain rfl := Option.some.inj (here.symm.trans inserts)
        obtain ⟨-, more, rfl⟩ := h.putter allowed puts covered
        exact ⟨more, inserts⟩
      | serves _ _ _ _ _ _ none | fetches _ _ _ _ _ _ none | neither _ none =>
        rw [none] at inserts
        contradiction

theorem Sends.sent_le (sends : p.Sends t m sent sent') : sent ≤ sent' := by
  obtain ⟨rfl, -⟩ | ⟨rfl, -⟩ := sends
  · exact Nat.le_refl _
  · exact Nat.le_succ _

theorem Underway.producer_free (h : p.Underway t sent) (allowed : p.Allows sent m)
    (trade : t.Trade m f) (more : sent < p.count) (inserts : t.inserts? m = some (p.segment sent)) :
    p.producer ∉ (f.traffic now).calls.map Prod.fst := by
  cases trade with
  | files puts _ added here =>
    obtain rfl := Option.some.inj (here.symm.trans inserts)
    obtain ⟨rfl, -⟩ := h.putter allowed puts (covers more)
    exact Traffic.free_after added puts.kept_sublist.2
  | serves _ _ _ _ _ _ none | fetches _ _ _ _ _ _ none | neither _ none =>
    rw [none] at inserts
    contradiction

section Step

variable (h : p.Underway t sent) (sound : t.Sound) (allowed : p.Allows sent m)
  (outcome : t.Outcome m f) (trade : t.Trade m f) (sends : p.Sends t m sent sent')

omit [DecidableEq κ] in
include allowed in
theorem not_close (who : κ) : m ≠ .close who := by
  rintro rfl
  exact allowed

include h sound trade sends in
theorem Underway.entries_next {name : Name} {e : Entry}
    (listed : (name, e) ∈ f.buffer.entries.toList) (covered : p.root.isPrefixOf name = true) :
    ∃ j < sent', e.block = p.segment j := by
  obtain ⟨old, there, -, block, -⟩ | ⟨inserts, -, rfl⟩ := trade.entries sound listed
  · obtain ⟨j, hj, same⟩ := h.entries name old there covered
    exact ⟨j, hj.trans_le sends.sent_le, block.trans same⟩
  · obtain ⟨rfl, elsewhere⟩ | ⟨rfl, -, here⟩ := sends
    · rw [elsewhere _ inserts] at covered
      contradiction
    · exact ⟨sent, Nat.lt_succ_self _, Option.some.inj (inserts.symm.trans here)⟩

include h allowed outcome trade sends in
theorem Underway.puts_next {who : κ} {block : Block} {deadline : Nat} {woken : Bool}
    (found : (who, .put block deadline woken) ∈ (f.traffic now).calls)
    (covered : p.root.isPrefixOf block.name = true) :
    who = p.producer ∧ sent' < p.count ∧ block = p.segment sent' := by
  have next : who = p.producer ∧ sent < p.count ∧ block = p.segment sent := by
    obtain rfl | ⟨woken', before⟩ := outcome.put_cases found
    · obtain next | elsewhere := allowed
      · exact next
      · rw [elsewhere] at covered
        contradiction
    · exact h.puts who block deadline woken' before covered
  obtain ⟨rfl, -⟩ | ⟨-, more, inserts⟩ := sends
  · exact next
  · have free : p.producer ∉ (f.traffic now).calls.map Prod.fst :=
      h.producer_free allowed trade more inserts
    exact absurd (next.1 ▸ List.mem_map_of_mem found) free

include h sound allowed outcome trade sends in
theorem Underway.step : p.Underway (f.traffic now) sent' where
  accepting := (outcome.stays_open sound h.accepting h.unclosing (not_close allowed)).1
  unclosing := (outcome.stays_open sound h.accepting h.unclosing (not_close allowed)).2
  sent_le := by
    obtain ⟨rfl, -⟩ | ⟨rfl, more, -⟩ := sends
    · exact h.sent_le
    · exact more
  entries := fun _ _ listed covered => h.entries_next sound trade sends listed covered
  puts := fun _ _ _ _ found covered => h.puts_next allowed outcome trade sends found covered

include h sound allowed outcome sends in
theorem Underway.buffered_stays (answer : (t.step m).answer = f.answer) (before : j < sent)
    (unread : t.buffer.bestEffort = true → ∀ who interest timeout,
      m = .request who interest timeout → t.returns? m ≠ some (who, p.segment j))
    (buffered : p.Buffered t.buffer j) : p.Buffered f.buffer j := by
  have inside := before.trans_le h.sent_le
  obtain ⟨e, listed, block, undelivered⟩ := buffered
  have mode := (outcome.change sound.buffer).bestEffort sound.buffer
  cases outcome.fate answer sound listed with
  | stays there => exact ⟨e, there, block, mode ▸ undelivered⟩
  | read move returns there =>
    refine ⟨_, there, block, fun best => ?_⟩
    exact absurd (block ▸ returns) (unread (mode ▸ best) _ _ _ move)
  | replaced inserts same =>
    obtain ⟨-, elsewhere⟩ | ⟨-, more, here⟩ := sends
    · have covered := elsewhere _ inserts
      rw [same, covers inside] at covered
      contradiction
    · obtain rfl := Option.some.inj (inserts.symm.trans here)
      obtain rfl := eq_of_name more inside same
      omega
  | swept best read => exact absurd (undelivered best) read
  | removed move =>
    subst move
    have covered : p.root.isPrefixOf (p.segment j).name = false := allowed
    rw [covers inside] at covered
    contradiction
  | cleared move =>
    subst move
    exact allowed.elim
  | shut closing => exact absurd closing (h.unclosing.not_closing (not_close allowed))

end Step

omit [DecidableEq κ] in
theorem buffered_of_filed (sound : t.Sound) {b : Buffer} {ns : List Notice}
    (tried : t.buffer.tryInsert (p.segment k) = .filed b ns)
    (untaken : t.buffer.bestEffort = true →
      (t.buffer.makeRoom (p.segment k).name).recipients (p.segment k) = 0) : p.Buffered b k := by
  have filed := Traffic.filed_of_tryInsert sound tried
  have mode : b.bestEffort = t.buffer.bestEffort := by
    rw [Buffer.bestEffort, Buffer.bestEffort, filed.config, Buffer.makeRoom_config]
  refine ⟨(t.buffer.makeRoom (p.segment k).name).newEntry (p.segment k), ?_, rfl,
    fun best => untaken (mode ▸ best)⟩
  rw [filed.entries]
  exact Table.mem_insert.mpr (.inl rfl)

end Publication

end NamedContent
