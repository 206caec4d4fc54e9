import Mathlib
import NamedContent.Proofs.Traffic.Delivery
import NamedContent.Proofs.Traffic.Encounter
import NamedContent.Proofs.Traffic.Publication

/-!
# One stream from a producer to a reader

A producer puts the segments of one root in order, and a reader asks for the
root first and then for what follows the segment it had last. Other callers do
what they like elsewhere. The reader receives the segments in order, whatever
the capacity of the buffer and whoever has to wait.
-/

set_option autoImplicit false

namespace NamedContent

/-- A publication and who reads it. -/
structure Stream (κ : Type) extends Publication κ where
  reader : κ

/-- How many segments have been put, and what the reader has received. -/
structure Progress where
  sent : Nat
  got : List Block

namespace Stream

variable {κ : Type} (s : Stream κ)

def firsts (k : Nat) : List Block := (List.range k).map s.segment

def wish (got : List Block) : Interest :=
  match got.getLast? with
  | none => .ofName s.root
  | some block => .nextAfter block.name

/-- The interest takes nothing from the stream. Where blocks stay for all
readers that is no matter. -/
def Spared (b : Buffer) (interest : Interest) : Prop :=
  b.bestEffort = true → ∀ k < s.count, interest.accepts (s.segment k).name = false

instance (b : Buffer) (interest : Interest) : Decidable (s.Spared b interest) :=
  inferInstanceAs (Decidable (_ → ∀ k < s.count, _))

theorem firsts_succ (k : Nat) : s.firsts (k + 1) = s.firsts k ++ [s.segment k] := by
  simp [firsts, List.range_succ]

theorem wish_firsts_succ (k : Nat) : s.wish (s.firsts (k + 1)) = .nextAfter (s.segment k).name := by
  rw [wish, firsts_succ, List.getLast?_concat]

section Segments

variable {s} {j k : Nat}

theorem wish_accepts_iff (hk : k ≤ s.count) (hj : j < s.count) :
    (s.wish (s.firsts k)).accepts (s.segment j).name = true ↔ k ≤ j := by
  cases k with
  | zero =>
    show (Interest.ofName s.root).accepts _ = true ↔ _
    rw [Interest.accepts_ofName]
    simp [Publication.covers hj]
  | succ k =>
    rw [wish_firsts_succ, s.named k hk, s.named j hj, Interest.accepts_nextAfter_append,
      Publication.number_lt_iff hk hj]
    exact Nat.lt_iff_add_one_le

theorem covers_of_wish (hk : k ≤ s.count) {name : Name}
    (accepts : (s.wish (s.firsts k)).accepts name = true) : s.root.isPrefixOf name = true := by
  cases k with
  | zero => rwa [show s.wish (s.firsts 0) = .ofName s.root from rfl, Interest.accepts_ofName]
      at accepts
  | succ k =>
    rw [wish_firsts_succ, s.named k hk, Interest.accepts, Interest.nextAfter,
      Name.segmentRoot_append, Bool.and_eq_true] at accepts
    exact accepts.1

end Segments

variable [DecidableEq κ]

/-- The reader asks for what follows its last segment and does not give up, and
nobody else asks for a segment. -/
def Minds (b : Buffer) (got : List Block) : Traffic.Move κ → Prop
  | .request who interest _ => if who = s.reader then interest = s.wish got else s.Spared b interest
  | .subscribe interest _ => s.Spared b interest
  | .cancel who => who ≠ s.reader
  | _ => True

end Stream

namespace Traffic

variable {κ : Type} [DecidableEq κ]

def given (t : Traffic κ) (who : κ) (m : Move κ) : List Block :=
  match t.returns? m with
  | some (other, block) => if other = who then [block] else []
  | none => []

def received (t : Traffic κ) (who : κ) : List (Move κ) → List Block
  | [] => []
  | m :: rest => t.given who m ++ (t.step m).traffic.received who rest

end Traffic

namespace Stream

variable {κ : Type} [DecidableEq κ] (s : Stream κ)

def after (p : Progress) (t : Traffic κ) (m : Traffic.Move κ) : Progress where
  sent := s.sentAfter p.sent t m
  got := p.got ++ t.given s.reader m

/-- Every move is one that the progress of the stream allows at its time. -/
def Follows (p : Progress) (t : Traffic κ) : List (Traffic.Move κ) → Prop
  | [] => True
  | m :: rest => (s.Allows p.sent m ∧ s.Minds t.buffer p.got m) ∧
      Follows (s.after p t m) (t.step m).traffic rest

instance (sent : Nat) : (m : Traffic.Move κ) → Decidable (s.Allows sent m)
  | .put _ _ => inferInstanceAs (Decidable (_ ∨ _))
  | .remove name => inferInstanceAs (Decidable (s.root.isPrefixOf name = false))
  | .clear | .close _ => inferInstanceAs (Decidable False)
  | .request _ _ _ | .drain _ _ | .resume _ | .cancel _ | .tick _ | .setCapacity _ | .addNamespace _
  | .removeNamespace _ | .subscribe _ _ | .read _ | .unsubscribe _ => inferInstanceAs (Decidable True)

instance (b : Buffer) (got : List Block) : (m : Traffic.Move κ) → Decidable (s.Minds b got m)
  | .request who interest _ => inferInstanceAs
      (Decidable (if who = s.reader then interest = s.wish got else s.Spared b interest))
  | .subscribe interest _ => inferInstanceAs (Decidable (s.Spared b interest))
  | .cancel who => inferInstanceAs (Decidable (who ≠ s.reader))
  | .put _ _ | .drain _ _ | .close _ | .resume _ | .tick _ | .setCapacity _ | .addNamespace _
  | .removeNamespace _ | .clear | .remove _ | .read _ | .unsubscribe _ =>
    inferInstanceAs (Decidable True)

instance decidableFollows (p : Progress) (t : Traffic κ) :
    (ms : List (Traffic.Move κ)) → Decidable (s.Follows p t ms)
  | [] => inferInstanceAs (Decidable True)
  | m :: rest =>
    have := decidableFollows (s.after p t m) (t.step m).traffic rest
    inferInstanceAs (Decidable ((s.Allows p.sent m ∧ s.Minds t.buffer p.got m) ∧
      s.Follows (s.after p t m) (t.step m).traffic rest))

/-- Nothing of the stream is in the buffer or on its way, nobody else waits for
it, and the reader has no call. -/
structure Fresh (t : Traffic κ) : Prop extends s.Unbegun t where
  waiters : ∀ w ∈ t.buffer.pending, s.Spared t.buffer w.interest
  free : t.call? s.reader = none

/-- After `sent` puts and `k` segments received: what the reader has not had is
in the buffer, but for the segment that its waiting request may hold. -/
structure Flow (t : Traffic κ) (sent k : Nat) : Prop where
  underway : s.Underway t sent
  unmissed : t.buffer.Unmissed
  got_le : k ≤ sent
  waiters : ∀ w ∈ t.buffer.pending, s.Spared t.buffer w.interest ∨
    ∃ deadline, (s.reader, .request w.id deadline .empty) ∈ t.calls
  asked : ∀ id deadline, (s.reader, .request id deadline .empty) ∈ t.calls →
    ∀ w ∈ t.buffer.pending, w.id = id → w.demand = .once ∧ w.interest = s.wish (s.firsts k)
  handed : ∀ id deadline block, (s.reader, .request id deadline (.handed block)) ∈ t.calls →
    k < sent ∧ block = s.segment k
  buffered : ∀ j, k ≤ j → j < sent → (j = k ∧ t.Holds s.reader) ∨ s.Buffered t.buffer j

variable {s} {t : Traffic κ} {m : Traffic.Move κ} {f : Traffic.Effect κ} {now sent k : Nat}

theorem Flow.of_free (underway : s.Underway t sent) (unmissed : t.buffer.Unmissed)
    (waiters : ∀ w ∈ t.buffer.pending, s.Spared t.buffer w.interest) (got_le : k ≤ sent)
    (free : t.call? s.reader = none) (buffered : ∀ j < sent, k ≤ j → s.Buffered t.buffer j) :
    s.Flow t sent k where
  underway := underway
  unmissed := unmissed
  got_le := got_le
  waiters := fun w hw => .inl (waiters w hw)
  asked := by
    intro id deadline listed
    exact absurd (List.mem_map_of_mem listed) (Traffic.call?_eq_none.mp free)
  handed := by
    intro id deadline block listed
    exact absurd (List.mem_map_of_mem listed) (Traffic.call?_eq_none.mp free)
  buffered := fun j later before => .inr (buffered j before later)

omit [DecidableEq κ] in
theorem available {b : Buffer} {j : Nat} (buffered : s.Buffered b j) (hk : k ≤ j)
    (hj : j < s.count) : ∃ e, ((s.segment j).name, e) ∈ b.entries.toList ∧
      e.block = s.segment j ∧ b.isAvailable (s.wish (s.firsts k)) e = true := by
  obtain ⟨e, listed, block, unread⟩ := buffered
  refine ⟨e, listed, block, ?_⟩
  have accepts := (wish_accepts_iff (hk.trans hj.le) hj).mpr hk
  rw [Buffer.isAvailable, block, accepts]
  cases best : b.bestEffort with
  | true => simp [unread best]
  | false => rfl

omit [DecidableEq κ] in
theorem Flow.caught_up (h : s.Flow t sent k) (sound : t.Sound) {w : Waiter}
    (hw : w ∈ t.buffer.pending) {deadline : Nat}
    (listed : (s.reader, .request w.id deadline .empty) ∈ t.calls) : k = sent := by
  by_contra behind
  have more : k < sent := Nat.lt_of_le_of_ne h.got_le behind
  obtain ⟨once, interest⟩ := h.asked _ _ listed w hw rfl
  obtain ⟨-, _, _, _, holds⟩ | buffered := h.buffered k (Nat.le_refl _) more
  · cases sound.call_unique listed holds
  · obtain ⟨e, stored, -, free⟩ :=
      available buffered (Nat.le_refl _) (more.trans_le h.underway.sent_le)
    rw [← interest, h.unmissed w hw once _ e stored] at free
    contradiction

def Reads (s : Stream κ) (t : Traffic κ) (m : Traffic.Move κ) (k k' : Nat) : Prop :=
  k' = k ∧ (∀ block, t.returns? m ≠ some (s.reader, block)) ∨
    k' = k + 1 ∧ t.returns? m = some (s.reader, s.segment k)

theorem Flow.served (h : s.Flow t sent k) (sound : t.Sound) (free : t.call? s.reader = none)
    {block : Block} {b : Buffer}
    (taken : t.buffer.take? (s.wish (s.firsts k)) = some (block, b)) :
    k < sent ∧ block = s.segment k := by
  have bound := h.got_le.trans h.underway.sent_le
  obtain ⟨e, listed, there, rfl, -⟩ := Buffer.take?_eq_some sound.buffer taken
  have accepts : (s.wish (s.firsts k)).accepts e.block.name = true :=
    (Bool.and_eq_true_iff.mp there).1
  obtain ⟨j, hj, block⟩ := h.underway.entries _ e listed (covers_of_wish bound accepts)
  rw [block] at accepts
  have inside := hj.trans_le h.underway.sent_le
  have least := (wish_accepts_iff bound inside).mp accepts
  have due : k < s.count := least.trans_lt inside
  obtain ⟨-, _, _, _, holds⟩ | buffered := h.buffered k (Nat.le_refl _) (least.trans_lt hj)
  · exact absurd (List.mem_map_of_mem holds) (Traffic.call?_eq_none.mp free)
  · obtain ⟨e', listed', block', there'⟩ := available buffered (Nat.le_refl _) due
    obtain ⟨-, same | before⟩ := Buffer.take?_first sound.buffer taken (by rwa [block'])
      there' (by rw [block']; exact Publication.isSegment due)
    · rw [block, block'] at same
      obtain rfl := Publication.eq_of_name due inside same
      exact ⟨hj, block⟩
    · rw [block, block', Publication.compare_eq_lt_iff inside due] at before
      omega

theorem Flow.returned (h : s.Flow t sent k) (sound : t.Sound) (minds : s.Minds t.buffer (s.firsts k) m)
    (trade : t.Trade m f) {block : Block} (returns : t.returns? m = some (s.reader, block)) :
    k < sent ∧ block = s.segment k := by
  obtain ⟨interest, timeout, rfl, free, taken⟩ | ⟨id, deadline, -, waits, -⟩ :=
    trade.of_returns returns
  · have asks : interest = s.wish (s.firsts k) := by simpa [Minds] using minds
    exact h.served sound free (asks ▸ taken)
  · exact h.handed id deadline block (Traffic.mem_of_call? waits)

theorem Flow.reads (h : s.Flow t sent k) (sound : t.Sound) (minds : s.Minds t.buffer (s.firsts k) m)
    (trade : t.Trade m f) :
    ∃ k', s.Reads t m k k' ∧ s.firsts k ++ t.given s.reader m = s.firsts k' := by
  cases returns : t.returns? m with
  | none => exact ⟨k, .inl ⟨rfl, by simp [returns]⟩, by simp [Traffic.given, returns]⟩
  | some r =>
    obtain ⟨who, block⟩ := r
    by_cases reader : who = s.reader
    · subst reader
      obtain ⟨-, rfl⟩ := h.returned sound minds trade returns
      refine ⟨k + 1, .inr ⟨rfl, returns⟩, ?_⟩
      rw [firsts_succ, Traffic.given, returns]
      simp
    · refine ⟨k, .inl ⟨rfl, ?_⟩, by simp [Traffic.given, returns, reader]⟩
      intro block' same
      exact reader (Prod.mk.inj (Option.some.inj (returns.symm.trans same))).1

section Step

variable {sent' k' : Nat} (h : s.Flow t sent k) (sound : t.Sound) (allowed : s.Allows sent m)
  (minds : s.Minds t.buffer (s.firsts k) m) (outcome : t.Outcome m f) (trade : t.Trade m f)
  (sends : s.Sends t m sent sent') (reads : s.Reads t m k k')

omit [DecidableEq κ] in
theorem spared_of_mode {b b' : Buffer} (mode : b'.bestEffort = b.bestEffort) {interest : Interest}
    (spared : s.Spared b interest) : s.Spared b' interest :=
  fun best => spared (mode ▸ best)

include h sound minds outcome trade in
theorem Flow.waiters_next {w : Waiter} (hw : w ∈ f.buffer.pending) :
    s.Spared f.buffer w.interest ∨
      ∃ deadline, (s.reader, .request w.id deadline .empty) ∈ (f.traffic now).calls := by
  have mode := (outcome.change sound.buffer).bestEffort sound.buffer
  obtain ⟨old, there, id, interest, once⟩ | ⟨who, timeout, deadline, rfl, -, -, -, added⟩ |
    ⟨limit, rfl, -⟩ := outcome.pending_cases sound hw
  · obtain elsewhere | ⟨deadline, listed⟩ := h.waiters old there
    · exact .inl (spared_of_mode mode (interest ▸ elsewhere))
    · have demand := once.mpr (h.asked _ _ listed old there rfl).1
      exact .inr ⟨deadline, outcome.waits_on trade sound hw demand (id ▸ listed)⟩
  · by_cases reader : who = s.reader
    · refine .inr ⟨deadline, Traffic.mem_effect_calls.mpr (.inr ?_)⟩
      rw [added, reader]
      exact List.mem_singleton.mpr rfl
    · exact .inl (spared_of_mode mode (by simpa [Minds, reader] using minds))
  · exact .inl (spared_of_mode mode minds)

include trade reads in
theorem got_same {call : Call} (found : (s.reader, call) ∈ (f.traffic now).calls) : k' = k := by
  obtain ⟨same, -⟩ | ⟨-, returns⟩ := reads
  · exact same
  · exact absurd (List.mem_map_of_mem found) (trade.requester_free returns)

include h sound minds outcome trade reads in
theorem Flow.asked_next {id deadline : Nat}
    (found : (s.reader, .request id deadline .empty) ∈ (f.traffic now).calls) {w : Waiter}
    (hw : w ∈ f.buffer.pending) (same : w.id = id) :
    w.demand = .once ∧ w.interest = s.wish (s.firsts k') := by
  obtain rfl := got_same trade reads found
  rcases Traffic.mem_effect_calls.mp found with waited | new
  · obtain ⟨slot, listed, rfl | ⟨-, ⟨_, filled, -⟩ | ⟨filled, -⟩⟩⟩ :=
      Traffic.request_of_heard waited
    -- a new waiter has an id that no call of before can have
    · have before := outcome.call_cases listed
      have issued := sound.issued _ _ _ _ before
      obtain ⟨old, there, ids, interest, once⟩ | ⟨_, _, _, -, -, fresh, -⟩ | ⟨_, -, fresh⟩ :=
        outcome.pending_cases sound hw
      · obtain ⟨demand, wish⟩ := h.asked id deadline before old there (ids ▸ same)
        exact ⟨once.mpr demand, interest.trans wish⟩
      · omega
      · omega
    · contradiction
    · contradiction
  · obtain ⟨interest, timeout, rfl, -, rfl, -, buffer⟩ := outcome.added_request new
    rw [buffer] at hw
    rcases List.mem_append.mp hw with old | enrolled
    · -- nobody who waited before has the id of the new request
      have below := sound.buffer.below w old
      omega
    · rw [List.mem_singleton.mp enrolled]
      exact ⟨rfl, by simpa [Minds] using minds⟩

include h sound allowed trade in
theorem Flow.told {id deadline : Nat} {block : Block}
    (listed : (s.reader, .request id deadline .empty) ∈ t.calls)
    (told : .handed id block ∈ f.notices) : k = sent ∧ block = s.segment k ∧ sent < s.count ∧
      t.inserts? m = some (s.segment sent) := by
  obtain ⟨inserts, w, hw, rfl, -, accepts⟩ := trade.told sound told
  obtain ⟨-, wish⟩ := h.asked _ _ listed w hw rfl
  have covered := covers_of_wish (h.got_le.trans h.underway.sent_le) (wish ▸ accepts)
  obtain rfl := h.caught_up sound hw listed
  obtain ⟨-, elsewhere⟩ | ⟨-, more, here⟩ := h.underway.sends allowed trade
  · rw [elsewhere _ inserts] at covered
    contradiction
  · exact ⟨rfl, Option.some.inj (inserts.symm.trans here), more, here⟩

include h sound allowed outcome trade sends reads in
theorem Flow.handed_next {id deadline : Nat} {block : Block}
    (found : (s.reader, .request id deadline (.handed block)) ∈ (f.traffic now).calls) :
    k' < sent' ∧ block = s.segment k' := by
  obtain rfl := got_same trade reads found
  obtain old | ⟨empty, told⟩ := outcome.handed_cases found
  · obtain ⟨less, same⟩ := h.handed _ _ _ (outcome.call_cases old)
    exact ⟨less.trans_le sends.sent_le, same⟩
  · obtain ⟨rfl, same, more, here⟩ :=
      h.told sound allowed trade (outcome.call_cases empty) told
    obtain ⟨rfl, elsewhere⟩ | ⟨rfl, -⟩ := sends
    · have covered := elsewhere _ here
      rw [Publication.covers more] at covered
      contradiction
    · exact ⟨Nat.lt_succ_self _, same⟩

include h sound minds trade reads in
theorem Flow.unread {j : Nat} (later : k' ≤ j) (before : j < sent)
    (best : t.buffer.bestEffort = true) {who : κ} {interest : Interest} {timeout : Nat}
    (move : m = .request who interest timeout) : t.returns? m ≠ some (who, s.segment j) := by
  intro returns
  have inside := before.trans_le h.underway.sent_le
  by_cases reader : who = s.reader
  · subst reader
    obtain ⟨-, nothing⟩ | ⟨rfl, here⟩ := reads
    · exact nothing _ returns
    · have same := congrArg Block.name (Prod.mk.inj (Option.some.inj (returns.symm.trans here))).2
      have least := h.returned sound minds trade here
      obtain rfl := Publication.eq_of_name inside (least.1.trans_le h.underway.sent_le) same
      omega
  · subst move
    have spared : s.Spared t.buffer interest := by simpa [Minds, reader] using minds
    obtain ⟨_, _, move, -, taken⟩ | ⟨_, _, move, -⟩ := trade.of_returns returns
    · cases move
      obtain ⟨e, -, there, same, -⟩ := Buffer.take?_eq_some sound.buffer taken
      rw [Buffer.isAvailable, ← same, spared best j inside] at there
      contradiction
    · contradiction

include h sound trade reads in
theorem Flow.buffered_new (more : sent < s.count)
    (inserts : t.inserts? m = some (s.segment sent)) :
    (sent = k' ∧ (f.traffic now).Holds s.reader) ∨ s.Buffered f.buffer sent := by
  cases trade with
  | serves _ _ _ _ _ _ none | fetches _ _ _ _ _ _ none | neither _ none =>
    rw [none] at inserts
    contradiction
  | @files who block deadline puts tried added here returns =>
    obtain rfl := Option.some.inj (here.symm.trans inserts)
    -- only a waiter can have taken the segment on its way, and all but the reader are spared
    by_cases untaken : t.buffer.bestEffort = true →
      (t.buffer.makeRoom (s.segment sent).name).recipients (s.segment sent) = 0
    · exact .inr (Publication.buffered_of_filed sound tried untaken)
    · left
      obtain ⟨best, taken⟩ := Classical.not_imp.mp untaken
      have filed := Traffic.filed_of_tryInsert sound tried
      have consistent := Buffer.makeRoom_consistent sound.buffer (s.segment sent).name
      obtain ⟨id, told⟩ | ⟨w, hw, standing, accepts⟩ :=
        Buffer.file_takers consistent (Buffer.tryInsert_filed tried).2.2.2 taken
      · have trade : t.Trade m f := .files puts tried added here returns
        obtain ⟨-, w, hw, rfl, once, accepts⟩ := trade.told sound told
        obtain spared | ⟨deadline', listed⟩ := h.waiters w hw
        · rw [spared best sent more] at accepts
          contradiction
        · obtain rfl := h.caught_up sound hw listed
          have kept := puts.keeps_request sound listed
          obtain ⟨block, same⟩ := Call.handed_of_told deadline' told (filed.unreleased _)
          have after : (s.reader, .request w.id deadline' (.handed block)) ∈ (f.traffic now).calls :=
            Traffic.mem_effect_calls.mpr (.inl (Traffic.mem_heard.mpr ⟨_, kept, same.symm⟩))
          exact ⟨(got_same trade reads after).symm, w.id, deadline', block, after⟩
      · rw [Buffer.makeRoom_pending] at hw
        obtain spared | ⟨deadline', listed⟩ := h.waiters w hw
        · rw [spared best sent more] at accepts
          contradiction
        · exact absurd (h.asked _ _ listed w hw rfl).1 standing

include h sound allowed minds outcome trade sends reads in
theorem Flow.buffered_next (answer : (t.step m).answer = f.answer) {j : Nat} (later : k' ≤ j)
    (before : j < sent') : (j = k' ∧ (f.traffic now).Holds s.reader) ∨ s.Buffered f.buffer j := by
  by_cases old : j < sent
  · have least : k ≤ j := by
      obtain ⟨rfl, -⟩ | ⟨rfl, -⟩ := reads
      · exact later
      · omega
    obtain ⟨rfl, id, deadline, block, holds⟩ | buffered := h.buffered j least old
    · left
      obtain ⟨rfl, nothing⟩ | ⟨rfl, -⟩ := reads
      · obtain after | returns | rfl := outcome.holds_on sound holds
        · exact ⟨rfl, id, deadline, block, after⟩
        · exact absurd returns (nothing block)
        · exact absurd rfl minds
      · omega
    · refine .inr (h.underway.buffered_stays sound allowed outcome sends answer old ?_ buffered)
      intro best who interest timeout move
      exact h.unread sound minds trade reads later old best move
  · obtain ⟨rfl, -⟩ | ⟨rfl, more, inserts⟩ := sends
    · exact absurd before old
    · obtain rfl : j = sent := by omega
      exact h.buffered_new sound trade reads more inserts

include h sound allowed minds outcome trade sends reads in
theorem Flow.step (answer : (t.step m).answer = f.answer) :
    s.Flow (f.traffic now) sent' k' where
  underway := h.underway.step sound allowed outcome trade sends
  unmissed := (outcome.change sound.buffer).unmissed sound.buffer h.unmissed
  got_le := by
    obtain ⟨rfl, -⟩ | ⟨rfl, returns⟩ := reads
    · exact h.got_le.trans sends.sent_le
    · exact (h.returned sound minds trade returns).1.trans_le sends.sent_le
  waiters := fun _ hw => h.waiters_next sound minds outcome trade hw
  asked := fun _ _ found _ hw same => h.asked_next sound minds outcome trade reads found hw same
  handed := fun _ _ _ found => h.handed_next sound allowed outcome trade sends reads found
  buffered := fun _ later before =>
    h.buffered_next sound allowed minds outcome trade sends reads answer later before

end Step

theorem Flow.run (h : s.Flow t sent k) (sound : t.Sound) (ms : List (Traffic.Move κ))
    (follows : s.Follows ⟨sent, s.firsts k⟩ t ms) :
    ∃ k' ≤ s.count, s.firsts k ++ t.received s.reader ms = s.firsts k' := by
  induction ms generalizing t sent k with
  | nil => exact ⟨k, h.got_le.trans h.underway.sent_le, List.append_nil _⟩
  | cons m rest ih =>
    obtain ⟨⟨allowed, minds⟩, later⟩ := follows
    obtain ⟨f, outcome, shows⟩ := t.step_explained m
    have trade := outcome.trade shows.answer
    obtain ⟨k', reads, got⟩ := h.reads sound minds trade
    have sends := h.underway.sends allowed trade
    have next : s.Flow (f.traffic (t.now + m.duration)) _ k' :=
      h.step sound allowed minds outcome trade sends reads shows.answer
    rw [← shows.traffic] at next
    rw [Stream.after, got] at later
    obtain ⟨k'', le, all⟩ := ih next (Traffic.step_sound sound m) later
    refine ⟨k'', le, ?_⟩
    rw [Traffic.received, ← List.append_assoc, got, all]

/-- Whatever happens in a buffer meanwhile, the reader of a stream receives its
segments in order, without a gap and each one once, as long as producer and
reader follow the protocol and nobody else meddles with the stream. -/
theorem received_in_order (s : Stream κ) (config : Buffer.Config)
    (before ms : List (Traffic.Move κ)) (fresh : s.Fresh ((Traffic.ofConfig config).run before))
    (follows : s.Follows ⟨0, []⟩ ((Traffic.ofConfig config).run before) ms) :
    ∃ k ≤ s.count,
      ((Traffic.ofConfig config).run before).received s.reader ms =
        (List.range k).map s.segment := by
  have unclosing := Traffic.run_unclosing config before fresh.accepting
  have flow : s.Flow ((Traffic.ofConfig config).run before) 0 0 :=
    .of_free (fresh.underway unclosing) (Traffic.run_unmissed config before) fresh.waiters
      (Nat.le_refl _) fresh.free (fun _ none => absurd none (Nat.not_lt_zero _))
  exact flow.run (Traffic.run_sound config before) ms follows

def twoSegments : Stream Nat where
  root := .root
  number := UInt64.ofNat
  segment := fun k =>
    { name := Name.root.append (.segment (UInt64.ofNat k))
      sequence := UInt64.ofNat k
      payload := []
      info := ⟨default, 0, .data, .key [], none, none⟩
      signature := ⟨[], .single⟩ }
  count := 2
  rising := by
    intro j k before below
    rw [UInt64.lt_iff_toNat_lt, UInt64.toNat_ofNat_of_lt', UInt64.toNat_ofNat_of_lt']
    · exact before
    · exact below.trans (by decide)
    · exact (before.trans below).trans (by decide)
  named := fun _ _ => rfl
  producer := 0
  reader := 1

/-- With one place, the second put waits until the reader has had the first segment. -/
def twoSegmentsMoves : List (Traffic.Move Nat) :=
  [.put 0 (twoSegments.segment 0), .put 0 (twoSegments.segment 1),
    .request 1 (.ofName .root) 0, .resume 0, .setCapacity 3,
    .request 1 (.nextAfter (twoSegments.segment 0).name) 0]

theorem twoSegments_received :
    let t : Traffic Nat := Traffic.ofConfig { capacity := 1 }
    twoSegments.Fresh t ∧ twoSegments.Follows ⟨0, []⟩ t twoSegmentsMoves ∧
      (t.received 1 twoSegmentsMoves).length = 2 ∧
      ∃ k ≤ 2, t.received 1 twoSegmentsMoves = (List.range k).map twoSegments.segment := by
  intro t
  have fresh : twoSegments.Fresh t := by
    constructor
    · constructor
      case accepting => rfl
      case entries => exact fun _ _ listed => absurd listed List.not_mem_nil
      case puts => exact fun _ _ _ _ listed => absurd listed List.not_mem_nil
    case waiters => exact fun _ hw => absurd hw List.not_mem_nil
    case free => rfl
  have follows : twoSegments.Follows ⟨0, []⟩ t twoSegmentsMoves := by decide +kernel
  exact ⟨fresh, follows, by decide +kernel,
    received_in_order twoSegments { capacity := 1 } [] twoSegmentsMoves fresh follows⟩

end Stream

end NamedContent
