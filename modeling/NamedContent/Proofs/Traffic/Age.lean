import Mathlib
import NamedContent.Proofs.Traffic.Undelivered

/-!
# Since when

Entries are numbered as they are put, and waiters as they register. No counter
goes back, so an entry with a smaller number was put by an earlier move of the
run, and a request with a smaller id has waited since an earlier one.
-/

set_option autoImplicit false

namespace NamedContent

namespace Traffic

variable {κ : Type} [DecidableEq κ] {t start : Traffic κ} {m : Move κ} {past ms : List (Move κ)}
  {n : Nat} {block : Block} {w v : Waiter}

/-- Move `n` puts the block, and no later move puts one of its name. -/
structure PutSince (start : Traffic κ) (ms : List (Move κ)) (n : Nat) (block : Block) : Prop where
  puts : ∃ m, ms[n]? = some m ∧ (start.run (ms.take n)).inserts? m = some block
  last : ∀ k m other, n < k → ms[k]? = some m →
    (start.run (ms.take k)).inserts? m = some other → other.name ≠ block.name

/-- With move `n` the waiter begins to wait, and it waits ever after. -/
structure WaitsSince (start : Traffic κ) (ms : List (Move κ)) (n : Nat) (w : Waiter) : Prop where
  inside : n < ms.length
  before : w ∉ (start.run (ms.take n)).buffer.pending
  after : ∀ k, n < k → k ≤ ms.length → w ∈ (start.run (ms.take k)).buffer.pending

theorem PutSince.snoc (h : start.PutSince past n block)
    (others : ∀ other, (start.run past).inserts? m = some other → other.name ≠ block.name) :
    start.PutSince (past ++ [m]) n block := by
  obtain ⟨⟨m', there, inserts⟩, last⟩ := h
  obtain ⟨inside, -⟩ := List.getElem?_eq_some_iff.mp there
  refine ⟨⟨m', ?_, ?_⟩, ?_⟩
  · rwa [List.getElem?_append_left inside]
  · rwa [List.take_append_of_le_length inside.le]
  · intro k m'' other later there' inserts'
    rcases Nat.lt_trichotomy k past.length with old | rfl | beyond
    · rw [List.getElem?_append_left old] at there'
      rw [List.take_append_of_le_length old.le] at inserts'
      exact last k m'' other later there' inserts'
    · obtain rfl : m = m'' := by simpa using there'
      rw [List.take_left] at inserts'
      exact others other inserts'
    · have inside' := (List.getElem?_eq_some_iff.mp there').1
      rw [List.length_append, List.length_singleton] at inside'
      omega

theorem PutSince.new (inserts : (start.run past).inserts? m = some block) :
    start.PutSince (past ++ [m]) past.length block := by
  refine ⟨⟨m, by simp, by rwa [List.take_left]⟩, ?_⟩
  intro k m' other later there
  have inside := (List.getElem?_eq_some_iff.mp there).1
  rw [List.length_append, List.length_singleton] at inside
  omega

theorem WaitsSince.snoc (h : start.WaitsSince past n w)
    (waits : w ∈ (start.run (past ++ [m])).buffer.pending) :
    start.WaitsSince (past ++ [m]) n w := by
  refine ⟨?_, ?_, ?_⟩
  · rw [List.length_append]
    exact Nat.lt_add_right _ h.inside
  · rw [List.take_append_of_le_length h.inside.le]
    exact h.before
  · intro k later inside
    rcases Nat.lt_or_ge past.length k with last | old
    · rwa [List.take_of_length_le (by rw [List.length_append, List.length_singleton]; omega)]
    · rw [List.take_append_of_le_length old]
      exact h.after k later old

theorem WaitsSince.new (absent : w ∉ (start.run past).buffer.pending)
    (waits : w ∈ (start.run (past ++ [m])).buffer.pending) :
    start.WaitsSince (past ++ [m]) past.length w := by
  refine ⟨by simp, by rwa [List.take_left], ?_⟩
  intro k later inside
  rwa [List.take_of_length_le (by rw [List.length_append, List.length_singleton]; omega)]

theorem step_nextOrder_le (sound : t.Sound) (m : Move κ) :
    t.buffer.nextOrder ≤ (t.step m).traffic.buffer.nextOrder := by
  obtain ⟨f, outcome, shows⟩ := t.step_explained m
  rw [shows.traffic]
  exact ((outcome.trade shows.answer).count sound).symm ▸ Nat.le_add_right _ _

theorem step_nextId_le (sound : t.Sound) (m : Move κ) :
    t.buffer.nextId ≤ (t.step m).traffic.buffer.nextId := by
  obtain ⟨f, outcome, shows⟩ := t.step_explained m
  rw [shows.traffic]
  exact (outcome.change sound.buffer).nextId_le sound.buffer

theorem take_le {count : Traffic κ → Nat}
    (grows : ∀ t : Traffic κ, t.Sound → ∀ m, count t ≤ count (t.step m).traffic)
    (config : Buffer.Config) (ms : List (Move κ)) {n k : Nat} (le : n ≤ k) :
    count ((ofConfig config).run (ms.take n)) ≤ count ((ofConfig config).run (ms.take k)) := by
  induction k, le using Nat.le_induction with
  | base => exact Nat.le_refl _
  | succ k _ ih =>
    refine ih.trans ?_
    rw [List.take_add_one]
    cases ms[k]? with
    | none => rw [Option.toList_none, List.append_nil]
    | some m =>
      rw [Option.toList_some, run_snoc]
      exact grows _ (run_sound config _) m

theorem put_since (config : Buffer.Config) (ms : List (Move κ)) {name : Name} {e : Entry}
    (listed : (name, e) ∈ ((ofConfig config).run ms).buffer.entries.toList) :
    ∃ n, (ofConfig config).PutSince ms n e.block ∧
      ((ofConfig config).run (ms.take n)).buffer.nextOrder = e.order := by
  induction ms using List.reverseRecOn generalizing e with
  | nil => contradiction
  | append_singleton past m ih =>
    obtain ⟨f, outcome, shows⟩ := ((ofConfig config).run past).step_explained m
    rw [run_snoc, shows.traffic] at listed
    obtain ⟨e', listed', order, block, others⟩ | ⟨inserts, order, -⟩ :=
      (outcome.trade shows.answer).entries (run_sound config past) listed
    · obtain ⟨n, since, number⟩ := ih listed'
      have named := (run_sound config past).buffer.keyed _ _ listed'
      rw [← named] at others
      obtain ⟨_, there, -⟩ := since.puts
      obtain ⟨inside, -⟩ := List.getElem?_eq_some_iff.mp there
      refine ⟨n, block ▸ since.snoc others, ?_⟩
      rw [List.take_append_of_le_length inside.le, number, order]
    · refine ⟨past.length, .new inserts, ?_⟩
      rw [List.take_left, order]

theorem waits_since (config : Buffer.Config) (ms : List (Move κ))
    (waits : w ∈ ((ofConfig config).run ms).buffer.pending) (once : w.demand = .once) :
    ∃ n, (ofConfig config).WaitsSince ms n w ∧
      ((ofConfig config).run (ms.take n)).buffer.nextId = w.id := by
  induction ms using List.reverseRecOn with
  | nil => contradiction
  | append_singleton past m ih =>
    by_cases before : w ∈ ((ofConfig config).run past).buffer.pending
    · obtain ⟨n, since, number⟩ := ih before
      refine ⟨n, since.snoc waits, ?_⟩
      rw [List.take_append_of_le_length since.inside.le, number]
    · obtain ⟨f, outcome, shows⟩ := ((ofConfig config).run past).step_explained m
      refine ⟨past.length, .new before waits, ?_⟩
      rw [run_snoc, shows.traffic] at waits
      rw [List.take_left]
      exact (((outcome.trade shows.answer).pending (run_sound config past) waits
        once).resolve_left before).symm

theorem put_before (config : Buffer.Config) (ms : List (Move κ)) {name other : Name} {e f : Entry}
    (listed : (name, e) ∈ ((ofConfig config).run ms).buffer.entries.toList)
    (listed' : (other, f) ∈ ((ofConfig config).run ms).buffer.entries.toList)
    (less : e.order < f.order) : ∃ n k, n < k ∧ (ofConfig config).PutSince ms n e.block ∧
      (ofConfig config).PutSince ms k f.block := by
  obtain ⟨n, since, number⟩ := put_since config ms listed
  obtain ⟨k, since', number'⟩ := put_since config ms listed'
  refine ⟨n, k, ?_, since, since'⟩
  by_contra later
  have count := take_le (fun t => step_nextOrder_le (t := t)) config ms (Nat.not_lt.mp later)
  omega

theorem waits_longer (config : Buffer.Config) (ms : List (Move κ))
    (waits : w ∈ ((ofConfig config).run ms).buffer.pending) (once : w.demand = .once)
    (waits' : v ∈ ((ofConfig config).run ms).buffer.pending) (once' : v.demand = .once)
    (less : w.id < v.id) : ∃ n k, n < k ∧ (ofConfig config).WaitsSince ms n w ∧
      (ofConfig config).WaitsSince ms k v := by
  obtain ⟨n, since, number⟩ := waits_since config ms waits once
  obtain ⟨k, since', number'⟩ := waits_since config ms waits' once'
  refine ⟨n, k, ?_, since, since'⟩
  by_contra later
  have count := take_le (fun t => step_nextId_le (t := t)) config ms (Nat.not_lt.mp later)
  omega

end Traffic

end NamedContent
