import Mathlib
import NamedContent.Proofs.Traffic.Handover
import NamedContent.Proofs.Traffic.Watching

/-!
# Blocks that only filters have

A filter is given copies, and a request is to find what it would find without.
It does until a best-effort buffer is given a block that a filter takes and no
waiting request: the copy counts as the one delivery of the block, so whoever
asks for it later gets nothing.
-/

set_option autoImplicit false

namespace NamedContent

namespace Traffic

variable {κ : Type} [DecidableEq κ] {ρ : Nat → Nat} {t t' : Traffic κ} {m : Move κ}

structure Without (names : List Name) (t u : Traffic κ) : Prop where
  entries : ∀ name, u.buffer.entries.find? name =
    if name ∈ names then none else t.buffer.entries.find? name
  phase : u.buffer.phase = t.buffer.phase
  config : u.buffer.config = t.buffer.config
  callers : u.calls.map Prod.fst = t.calls.map Prod.fst

theorem step_remove (t : Traffic κ) (name : Name) :
    Without [name] t (t.step (.remove name)).traffic := by
  simp only [step]
  cases found : t.buffer.remove? name with
  | none =>
    have absent : t.buffer.entries.find? name = none := Option.map_eq_none_iff.mp found
    refine ⟨fun k => ?_, rfl, rfl, rfl⟩
    show t.buffer.entries.find? k = _
    by_cases same : k = name
    · rw [if_pos (List.mem_singleton.mpr same), same, absent]
    · rw [if_neg (mt List.mem_singleton.mp same)]
  | some taken =>
    obtain ⟨block, b⟩ := taken
    obtain rfl := Buffer.remove?_eq_some found
    rw [(finish_shows _ _ _ _).traffic]
    refine ⟨fun k => ?_, rfl, rfl, ?_⟩
    · show (t.buffer.entries.erase name).find? k = _
      rw [Table.find?_erase]
      simp only [List.mem_singleton]
    · simp only [Effect.traffic, List.append_nil]
      exact heard_callers _ _

theorem run_removes (t : Traffic κ) (names : List Name) :
    Without names t (t.run (names.map .remove)) := by
  induction names generalizing t with
  | nil => exact ⟨by simp [run], rfl, rfl, rfl⟩
  | cons name names ih =>
    have first := t.step_remove name
    have rest := ih (t.step (.remove name)).traffic
    refine ⟨fun k => ?_, rest.phase.trans first.phase, rest.config.trans first.config,
      rest.callers.trans first.callers⟩
    rw [List.map_cons, run, rest.entries, first.entries]
    by_cases same : k = name
    · simp [same]
    · simp [same]

theorem request_answer {who : κ} (free : t.call? who = none) (phase : t.buffer.phase ≠ .closed)
    (interest : Interest) : (t.step (.request who interest 0)).answer =
      some (.ok ((t.buffer.take? interest).elim .nothing fun taken => .block taken.1)) := by
  cases taken : t.buffer.take? interest with
  | none =>
    rw [step_request_missed free phase 0 taken]
    rfl
  | some found =>
    rw [step_request_taken free phase 0 taken]
    rfl

theorem results_removes (t : Traffic κ) (names : List Name) :
    t.results (names.map .remove) = [] := by
  induction names generalizing t with
  | nil => rfl
  | cons name names ih =>
    rw [List.map_cons, results, ih]
    rfl

theorem run_orderly (h : t.buffer.Orderly) (ms : List (Move κ)) : (t.run ms).buffer.Orderly := by
  induction ms generalizing t with
  | nil => exact h
  | cons m rest ih => exact ih (step_orderly h m)

section Filed

variable {who : κ} {block : Block} {deadline : Nat} {kept : List (κ × Call)} {c : Buffer}
  {ns : List Notice}

theorem Puts.filed (puts : t.Puts m who block deadline kept)
    (tried : t.buffer.tryInsert block = .filed c ns) :
    (t.step m).traffic.buffer = c ∧ (t.step m).traffic.call? who = none := by
  rw [puts.step_eq, attemptPut, tried]
  refine ⟨finish_buffer _ _ _ _, ?_⟩
  rw [call?_eq_none, (finish_shows _ _ _ _).traffic, Effect.traffic, List.append_nil]
  dsimp only
  rw [heard_callers]
  exact puts.kept_sublist.2

end Filed

/-- The moves by which a reader can tell two buffers apart. -/
def Move.isQuery : Move κ → Bool
  | .request .. | .remove .. => true
  | _ => false

theorem results_probe {who : κ} (free : t.call? who = none) (phase : t.buffer.phase ≠ .closed)
    (names : List Name) (interest : Interest) :
    t.results (names.map .remove ++ [.request who interest 0]) = [(who, some (.ok
      (((t.run (names.map .remove)).buffer.take? interest).elim .nothing fun taken =>
        .block taken.1)))] := by
  have without := t.run_removes names
  have free' : (t.run (names.map .remove)).call? who = none := by
    rw [call?_eq_none, without.callers]
    exact call?_eq_none.mp free
  have phase' : (t.run (names.map .remove)).buffer.phase ≠ .closed := without.phase ▸ phase
  rw [results_append, results_removes, results, request_answer free' phase']
  rfl

theorem Shadows.puts (h : t.Shadows ρ t') {who : κ} {block : Block} {deadline : Nat}
    {kept' : List (κ × Call)} (puts' : t'.Puts m who block deadline kept') :
    ∃ deadline kept, t.Puts m who block deadline kept := by
  cases puts' with
  | begun free =>
    rw [h.call?, Option.map_eq_none_iff] at free
    exact ⟨_, _, .begun free⟩
  | resumed waits =>
    rw [h.call?, Option.map_eq_some_iff] at waits
    obtain ⟨call, waits, same⟩ := waits
    cases call with
    | request | drain => contradiction
    | put =>
      cases same
      exact ⟨_, _, .resumed waits⟩

theorem probe_misses (orderly : t.buffer.Orderly) (best : t.buffer.bestEffort = true) {name : Name}
    {e : Entry} (stored : t.buffer.entries.find? name = some e) (read : e.deliveries ≠ 0)
    (interest : Interest) :
    (t.run ((t.buffer.entries.keys.filter (· ≠ name)).map .remove)).buffer.take? interest =
      none := by
  have without := t.run_removes (t.buffer.entries.keys.filter (· ≠ name))
  rw [Buffer.take?_eq_none (run_orderly orderly _).consistent]
  intro k other listed
  have there := without.entries k
  rw [Table.find?_eq_some.mpr listed] at there
  split at there
  · contradiction
  · rename_i kept
    have only : k = name := by
      by_contra apart
      have key : k ∈ t.buffer.entries.keys :=
        List.mem_map_of_mem (f := Prod.fst) (Table.find?_eq_some.mp there.symm)
      exact kept (List.mem_filter.mpr ⟨key, by simpa using apart⟩)
    rw [only, stored] at there
    cases there
    have mode : (t.run ((t.buffer.entries.keys.filter (· ≠ name)).map .remove)).buffer.bestEffort =
        true := by rw [Buffer.bestEffort, without.config]; exact best
    rw [Buffer.isAvailable, mode]
    simp [read]

theorem probe_finds (orderly : t.buffer.Orderly) {name : Name} {e : Entry}
    (stored : t.buffer.entries.find? name = some e) (named : e.block.name = name)
    (unread : e.deliveries = 0) {names : List Name} (kept : name ∉ names) :
    (t.run (names.map .remove)).buffer.take? (.ofName name) ≠ none := by
  have without := t.run_removes names
  rw [Ne, Buffer.take?_eq_none (run_orderly orderly _).consistent]
  intro nothing
  have there := without.entries name
  rw [if_neg kept, stored] at there
  have missed := nothing _ e (Table.find?_eq_some.mp there)
  have covers : name.isPrefixOf name = true := Name.isPrefixOf_iff.mpr (List.prefix_refl _)
  simp [Buffer.isAvailable, unread, Interest.accepts, Interest.ofName, named, covers] at missed

theorem Shadows.told_apart (h : t.Shadows ρ t') (orderly : t.buffer.Orderly)
    (orderly' : t'.buffer.Orderly) (copied : t'.CopiedOnly m) :
    ∃ later, (∀ m ∈ later, m.isQuery = true) ∧
      (t'.step m).traffic.results later ≠ (t.step m).traffic.results later := by
  obtain ⟨block, inserts, best, unclaimed', seen⟩ := copied
  obtain ⟨who, deadline, kept', c', ns', puts', tried', -⟩ := step_of_inserts inserts
  obtain ⟨_, _, puts⟩ := h.puts puts'
  obtain ⟨c, ns, tried⟩ : ∃ c ns, t.buffer.tryInsert block = .filed c ns := by
    obtain ⟨_, -, other⟩ | ⟨_, _, -, other, -⟩ | ⟨c, ns, _, _, tried, -⟩ :=
      h.buffer.tryInsert_cases orderly orderly' block
    · rw [tried'] at other
      contradiction
    · rw [tried'] at other
      contradiction
    · exact ⟨c, ns, tried⟩
  have unclaimed : t.buffer.claimants block = [] := by
    have same := h.buffer.claimants_eq block
    rw [unclaimed'] at same
    exact List.map_eq_nil_iff.mp same.symm
  have read : (t'.buffer.takers block).length + (t'.buffer.watchers block).length ≠ 0 := by
    have some := List.length_pos_iff.mpr seen
    omega
  have unread : (t.buffer.takers block).length + (t.buffer.watchers block).length = 0 := by
    rw [h.buffer.watchers_eq_nil, Buffer.takers, unclaimed]
    simp
  have stored := orderly.stored tried
  have stored' := orderly'.stored tried'
  have phase := orderly.phase_of_filed tried
  have phase' := orderly'.phase_of_filed tried'
  have mode := ((Buffer.change_of_filed tried').bestEffort orderly'.consistent).trans best
  have after := step_orderly orderly m
  have after' := step_orderly orderly' m
  obtain ⟨rfl, free⟩ := puts.filed tried
  obtain ⟨rfl, free'⟩ := puts'.filed tried'
  -- with all others taken out, a request for the block must come to the block or to nothing
  let names := (t'.step m).traffic.buffer.entries.keys.filter (· ≠ block.name)
  refine ⟨names.map .remove ++ [.request who (.ofName block.name) 0], ?_, ?_⟩
  · intro q listed
    rcases List.mem_append.mp listed with removal | request
    · obtain ⟨_, -, rfl⟩ := List.mem_map.mp removal
      rfl
    · rw [List.mem_singleton.mp request]
      rfl
  · have other : block.name ∉ names := by simp [names]
    have found := probe_finds after stored rfl unread other
    rw [results_probe free' (by simp [phase']), results_probe free (by simp [phase]),
      probe_misses after' mode stored' read]
    obtain ⟨taken, there⟩ := Option.ne_none_iff_exists'.mp found
    rw [there]
    simp

theorem CopiedOnly.acts (copied : t.CopiedOnly m) :
    m.isWatch = false ∧ m.isQuery = false ∧ t.requester? m = none := by
  obtain ⟨block, inserts, -⟩ := copied
  obtain ⟨_, _, _, _, _, puts, -⟩ := step_of_inserts inserts
  refine ⟨?_, ?_, puts.putBlock?.2⟩
  · cases puts <;> rfl
  · cases puts <;> rfl

omit [DecidableEq κ] in
theorem Move.trades_of_isQuery (query : m.isQuery = true) :
    m.isTrade = true ∧ m.isWatch = false := by
  cases m with
  | request | remove => exact ⟨rfl, rfl⟩
  | _ => contradiction

omit [DecidableEq κ] in
theorem ofConfig_shadows (config : Buffer.Config) :
    Shadows id (ofConfig config : Traffic κ) (ofConfig config) :=
  ⟨Buffer.ofConfig_shadows config, rfl, rfl, by simp [ofConfig]⟩

section Prefix

variable {config : Buffer.Config} {before : List (Move κ)}

/-- While no block goes to filters alone, a run beside the run without the filters. -/
theorem ofConfig_run (trades : ∀ m ∈ before, m.isTrade = true)
    (shared : ∀ first m rest, before = first ++ m :: rest →
      ¬((ofConfig config).run first).CopiedOnly m) :
    (ofConfig config).results before =
        (ofConfig config).results (before.filter fun m => !m.isWatch) ∧
      ∃ ρ, ((ofConfig config).run (before.filter fun m => !m.isWatch)).Shadows ρ
        ((ofConfig config).run before) :=
  have start := Buffer.ofConfig_orderly config
  (ofConfig_shadows config).run (ofConfig_sound config) start start before trades shared

theorem results_of_shared (trades : ∀ m ∈ before, m.isTrade = true)
    (shared : ∀ first m rest, before = first ++ m :: rest →
      ¬((ofConfig config).run first).CopiedOnly m)
    {later : List (Move κ)} (queries : ∀ m ∈ later, m.isQuery = true) :
    (ofConfig config).results (before ++ later) =
      (ofConfig config).results ((before ++ later).filter fun m => !m.isWatch) := by
  have start := Buffer.ofConfig_orderly config
  obtain ⟨alike, ρ, kept⟩ := ofConfig_run trades shared
  obtain ⟨alike', -⟩ := kept.run (run_sound config _) (run_orderly start _) (run_orderly start _)
    later (fun m hm => (Move.trades_of_isQuery (queries m hm)).1) (by
      intro first m rest inside copied
      have query := queries m (inside ▸ List.mem_append_right _ List.mem_cons_self)
      rw [copied.acts.2.1] at query
      contradiction)
  rw [results_append, List.filter_append, results_append, alike, alike']

theorem results_of_copied (trades : ∀ m ∈ before, m.isTrade = true)
    (shared : ∀ first m rest, before = first ++ m :: rest →
      ¬((ofConfig config).run first).CopiedOnly m)
    (copied : ((ofConfig config).run before).CopiedOnly m) :
    ∃ later, (∀ m ∈ later, m.isQuery = true) ∧
      (ofConfig config).results (before ++ [m] ++ later) ≠
        (ofConfig config).results ((before ++ [m] ++ later).filter fun m => !m.isWatch) := by
  have start := Buffer.ofConfig_orderly config
  obtain ⟨alike, ρ, kept⟩ := ofConfig_run trades shared
  obtain ⟨acts, -, unasked⟩ := copied.acts
  have unasked' := (kept.requester? m).symm.trans unasked
  obtain ⟨later, queries, apart⟩ :=
    kept.told_apart (run_orderly start _) (run_orderly start _) copied
  refine ⟨later, queries, fun same => apart ?_⟩
  have single : [m].filter (fun m => !m.isWatch) = [m] := by simp [acts]
  have all : later.filter (fun m => !m.isWatch) = later := by
    rw [List.filter_eq_self]
    intro q hq
    simp [(Move.trades_of_isQuery (queries q hq)).2]
  simpa only [List.filter_append, single, all, results_append, run_append, alike, results, unasked,
    unasked', run, Option.map_none, Option.toList_none, List.append_nil,
    List.append_cancel_left_eq] using same

end Prefix

/-- Filters are opened and read, and every request comes to what it would come to
without them, now and whatever is asked for and taken out next, exactly if no
move of the run puts a block into a best-effort buffer that filters take and no
waiting request. -/
theorem results_unwatched_iff (config : Buffer.Config) (ms : List (Move κ))
    (trades : ∀ m ∈ ms, m.isTrade = true) :
    (∀ before after later, ms = before ++ after → (∀ m ∈ later, m.isQuery = true) →
      (ofConfig config).results (before ++ later) =
        (ofConfig config).results ((before ++ later).filter fun m => !m.isWatch)) ↔
    ∀ before m after, ms = before ++ m :: after →
      ¬((ofConfig config).run before).CopiedOnly m := by
  constructor
  · intro same before
    -- by induction on the length, so the two runs agree before the first such block
    induction n : before.length using Nat.strong_induction_on generalizing before with
    | h n ih =>
      intro m after split copied
      obtain ⟨later, queries, apart⟩ := results_of_copied
        (fun m hm => trades m (split ▸ List.mem_append_left _ hm)) (by
          intro first m' rest inside
          refine ih first.length ?_ first rfl m' (rest ++ m :: after) ?_
          · rw [← n, inside, List.length_append, List.length_cons]
            omega
          · rw [split, inside, List.append_assoc, List.cons_append]) copied
      exact apart (same (before ++ [m]) after later (by rw [split]; simp) queries)
  · intro shared before after later split queries
    refine results_of_shared (fun m hm => trades m (split ▸ List.mem_append_left _ hm)) ?_ queries
    intro first m rest inside
    exact shared first m (rest ++ after)
      (by rw [split, inside, List.append_assoc, List.cons_append])

def copiedMoves : List (Move Nat) :=
  [.subscribe (.ofName (letterBlock 97).name) none, .put 0 (letterBlock 97),
    .request 1 (.ofName (letterBlock 97).name) 0]

/-- With the filter the request comes to nothing, without it to the block. -/
theorem copied_block_withheld :
    (ofConfig {}).results copiedMoves = [(1, some (.ok .nothing))] ∧
      (ofConfig {}).results (copiedMoves.filter fun m => !m.isWatch) =
        [(1, some (.ok (.block (letterBlock 97))))] := by
  decide +kernel

/-- In persistent mode the request finds the block, as does whatever is asked later. -/
theorem persistent_copy_seen :
    (∀ m ∈ copiedMoves, m.isTrade = true) ∧
      ∀ before after later, copiedMoves = before ++ after → (∀ m ∈ later, m.isQuery = true) →
        (ofConfig { mode := .persistent }).results (before ++ later) =
          (ofConfig { mode := .persistent }).results
            ((before ++ later).filter fun m => !m.isWatch) := by
  have trades : ∀ m ∈ copiedMoves, m.isTrade = true := by decide
  refine ⟨trades, (results_unwatched_iff { mode := .persistent } copiedMoves trades).mpr ?_⟩
  rintro before m after - ⟨block, -, best, -⟩
  rw [Buffer.bestEffort, run_config] at best
  contradiction

end Traffic

end NamedContent
