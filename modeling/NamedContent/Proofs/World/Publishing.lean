import Mathlib
import NamedContent.Proofs.Traffic.Reading
import NamedContent.Proofs.World.Admission
import NamedContent.Proofs.World.Putting

/-!
# What has been published can be read back

When the put of a segmenter on a persistent buffer has ended well and there is
nothing else under its root, a reader gets its blocks, one after the other, and
their payloads are the part of the content that was to be published. A put with a
bad range changes nothing.
-/

set_option autoImplicit false

namespace NamedContent

namespace World

variable {w w' : World} {n : Nat}

theorem finishWith_of_absent (absent : ∀ task, (n, task) ∉ w.tasks) (loan : Loan)
    (outcome : Outcome) : w.finishWith n loan outcome =
      { w with ended := w.ended ++ [(n, w.now, outcome)], returned := w.returned ++ [(n, loan)] } := by
  have same : w.tasks.filter (fun t => t.1 ≠ n) = w.tasks := by
    rw [List.filter_eq_self]
    intro x mem
    have apart : x.1 ≠ n := fun here => absent x.2 (here ▸ mem)
    simpa using apart
  rw [World.finishWith, World.finish, World.dropTask, same]

theorem fileReturned_segmenter {id : String} {s : Segmenter}
    (alone : w.returned = [(n, .segmenter id s)]) :
    w.fileReturned = { w with returned := [] }.fileSegmenter id s := by
  rw [World.fileReturned, alone, List.mergeSort_singleton]
  rfl

theorem fileSegmenter_back {id : String} {s : Segmenter} (filed : w.segmenters.find? id = some s) :
    (Session.takeSegmenter w id).fileSegmenter id s = w := by
  have gone : (w.segmenters.erase id).find? id = none :=
    (w.segmenters.find?_erase id id).trans (if_pos rfl)
  rw [World.fileSegmenter, Session.takeSegmenter]
  simp only [gone, Table.insert_erase filed]

theorem step_unplanned {id : String} {s : Segmenter} (filed : w.segmenters.find? id = some s)
    (unborn : w.Unborn n) {name : Name} {content : Bytes} {options : Segmenter.Options}
    {error : PublishError} (unplanned : s.plan w.keys (Int64.ofNat (1000 * w.now)) name content
      options = .error error) :
    w.step n (.write id name content options) = { Session.takeSegmenter w id with
      ended := w.ended ++ [(n, w.now, .error (.publish error))]
      returned := w.returned ++ [(n, .segmenter id s)] } := by
  have same : s.plan (Session.takeSegmenter w id).keys
      (Int64.ofNat (1000 * (Session.takeSegmenter w id).now)) name content options = .error error :=
    unplanned
  rw [step_write filed, World.beginWriting, same]
  exact finishWith_of_absent (w := Session.takeSegmenter w id) unborn.1 _ _

theorem fileReturned_unplanned {id : String} {s : Segmenter}
    (filed : w.segmenters.find? id = some s) (settled : w.returned = [])
    (ended : List (Nat × Nat × Outcome)) :
    World.fileReturned { Session.takeSegmenter w id with
      ended, returned := w.returned ++ [(n, .segmenter id s)] } = { w with ended } := by
  have alone : w.returned ++ [(n, .segmenter id s)] = [(n, .segmenter id s)] := by
    rw [settled, List.nil_append]
  rw [fileReturned_segmenter alone, ← settled]
  exact fileSegmenter_back (w := { w with ended }) filed

theorem beginWriting_stage {config : Buffer.Config} (persistent : config.mode = .persistent)
    {ms : List (Traffic.Move Caller)} (history : w.traffic = (Traffic.ofConfig config).run ms)
    (unanswered : w.Unanswered n) (free : w.traffic.call? (.task n) = none) (id : String)
    (s : Segmenter) (name : Name) (content : Bytes) (options : Segmenter.Options) :
    Stage n (s.plannedBlocks w.keys (Int64.ofNat (1000 * w.now)) name content options)
      (w.beginWriting n id s name content options) := by
  rw [World.beginWriting, Segmenter.plannedBlocks]
  cases planned : s.plan w.keys (Int64.ofNat (1000 * w.now)) name content options with
  | error error => exact failed_of_error unanswered _ _
  | ok plan =>
    have entered : (w.applyHoldings plan.holdings).Unanswered n :=
      unanswered.of_same (applyHoldings_ended w plan.holdings)
    obtain ⟨data, key, -, -, -, -, prepares⟩ := Segmenter.plan_eq_ok planned
    obtain ⟨entering, holdings, written⟩ := plan
    cases written with
    | error error => exact failed_of_error entered _ _
    | ok writing =>
      have prepared := Segmenter.prepare_eq_ok prepares.symm
      have free : (w.applyHoldings holdings).traffic.call? (.task n) = none := by
        rw [applyHoldings_traffic]
        exact free_of_holdings free holdings
      have since : (w.applyHoldings holdings).traffic =
          (Traffic.ofConfig config).run (ms ++ holdings.map Segmenter.Holding.move) := by
        rw [applyHoldings_traffic, history, Traffic.run_append]
      show Stage n writing.blocks (World.putBlocks n id entering writing.blocks _ writing)
      -- a buffer that takes no more puts refuses the first block, and there is a first block
      by_cases accepting : (w.applyHoldings holdings).traffic.buffer.phase = .accepting
      · have lasting : (w.applyHoldings holdings).traffic.Lasting := by
          rw [since] at accepting ⊢
          exact Traffic.run_lasting persistent accepting
        have underway : (w.applyHoldings holdings).Underway n [] :=
          ⟨lasting, by simp [Traffic.HasAll], entered⟩
        exact putBlocks_stage (List.nil_append writing.blocks).symm underway free id entering
          prepared.first
      · obtain ⟨block, rest, blocks⟩ := List.exists_cons_of_ne_nil prepared.blocks_ne_nil
        rw [blocks, World.putBlocks, move_eq, Traffic.put_refused free accepting block]
        exact failed_of_error (entered.of_same (moved_ended _ _)) _ _

theorem Stage.of_ended {blocks : List Block} (h : Stage n blocks w) {time : Nat} {first : Block}
    (ended : (n, time, .ok (.block first)) ∈ w.ended) :
    blocks.head? = some first ∧ w.traffic.Lasting ∧ w.traffic.HasAll blocks := by
  cases h with
  | working _ _ _ _ _ _ _ _ underway => exact absurd ended (underway.unanswered time first)
  | arrived _ head lasting there => exact ⟨head time first ended, lasting, there⟩
  | failed _ unanswered => exact absurd ended (unanswered time first)

theorem reached_unmissed (config : Buffer.Config) (key : Ed25519.SigningKey)
    (events : List Event) : (reached config key events).traffic.buffer.Unmissed := by
  obtain ⟨ms, history⟩ := reached_traffic config key events
  rw [history]
  exact Traffic.run_unmissed config ms

/-- A put stands somewhere between its begin and its end, whatever else has happened. -/
theorem reached_stage {config : Buffer.Config} (persistent : config.mode = .persistent)
    (key : Ed25519.SigningKey) {before after : List Event} {id : String} {s : Segmenter}
    (filed : (reached config key before).segmenters.find? id = some s) (name : Name)
    (content : Bytes) (options : Segmenter.Options) {blocks : List Block}
    (planned : s.plannedBlocks (reached config key before).keys
      (Int64.ofNat (1000 * (reached config key before).now)) name content options = blocks)
    (undisturbed : ((reached config key before).step before.length
      (.write id name content options)).Undisturbed before.length blocks (before.length + 1) after) :
    Stage before.length blocks
      (reached config key (before ++ .write id name content options :: after)) := by
  have ordered := reached_ordered config key before
  have unborn := reached_unborn config key before
  obtain ⟨ms, history⟩ := reached_traffic config key before
  have begun : Stage before.length blocks
      ((reached config key before).step before.length (.write id name content options)) := by
    rw [step_write filed, ← planned]
    exact beginWriting_stage (w := Session.takeSegmenter (reached config key before) id) persistent
      history (fun _ _ mem => unborn.2 _ mem) (Orderly.free ordered) id s name content options
  rw [reached_append]
  exact begun.through (ordered.step _) (Nat.lt_succ_self _) undisturbed

/-- Publishing, and reading what has been published. In any world a segmenter puts a
part of some content. If the part is not within the content, the put is refused
and leaves everything as it was. If on a persistent buffer the put returns its
first block, after whatever has happened but a close and the removal of blocks
that it had put, and its numbers fit 64 bits, then its blocks carry that part; and
if there is nothing else under the root of the first block, a reader of that root
gets these blocks in order and then nothing. -/
theorem write_reads_back (config : Buffer.Config) (key : Ed25519.SigningKey) (before : List Event)
    (id : String) (s : Segmenter)
    (filed : (reached config key before).segmenters.find? id = some s) (name : Name)
    (content : Bytes) (options : Segmenter.Options) :
    let w := reached config key before
    let n := before.length
    let put := Event.write id name content options
    let length := options.length.getD (content.length - options.offset)
    let data := (content.drop options.offset).take length
    let blocks := s.plannedBlocks w.keys (Int64.ofNat (1000 * w.now)) name content options
    (content.length < options.offset + length →
      let refused := { w with ended := w.ended ++ [(n, w.now, .error (.publish
        (.invalidArgument (.badRange options.offset length content.length))))] }
      w.step n put = { Session.takeSegmenter refused id with
          returned := w.returned ++ [(n, .segmenter id s)] } ∧
        (w.returned = [] → (w.step n put).fileReturned = refused)) ∧
    (config.mode = .persistent →
      ∀ after : List Event, (w.step n put).Undisturbed n blocks (n + 1) after →
      ∀ time first, (n, time, .ok (.block first)) ∈
          (reached config key (before ++ put :: after)).ended →
        let t := (reached config key (before ++ put :: after)).traffic
        let root := first.name.segmentRoot
        options.offset + length ≤ content.length ∧ blocks.head? = some first ∧
        ((s.enter name.segmentRoot).1.Fits data →
          Segmenter.Carry blocks data s.config.blockSize options.isFinal ∧
          ∀ reader rounds, t.Only root blocks → t.call? reader = none →
            (∀ r ∈ rounds, r.Quiet root reader) → blocks.length < rounds.length →
            t.readAll reader rounds (.ofName root) = (blocks, some (.ok .nothing)))) := by
  intro w n put length data blocks
  constructor
  · intro outside refused
    have unborn : w.Unborn n := reached_unborn config key before
    have refusal := step_unplanned filed unborn (Segmenter.plan_bad_range outside s w.keys
      (Int64.ofNat (1000 * w.now)) name)
    refine ⟨refusal, fun settled => ?_⟩
    rw [show w.step n put = _ from refusal]
    exact fileReturned_unplanned filed settled _
  · intro persistent after undisturbed time first ended t root
    obtain ⟨head, lasting, there⟩ :=
      (reached_stage persistent key filed name content options rfl undisturbed).of_ended ended
    have mem : first ∈ blocks := List.mem_of_head? head
    obtain ⟨inside, named, carries⟩ := Segmenter.of_mem_plannedBlocks mem
    have under : root = name.segmentRoot.segmentRoot := by
      rw [show root = first.name.segmentRoot from rfl, named first mem, Name.segmentRoot_segmentName]
    refine ⟨inside, head, fun fits => ⟨carries fits, fun reader rounds only free quiet enough => ?_⟩⟩
    refine Traffic.readAll_of_only lasting (reached_unmissed config key _) there only
      (List.ne_nil_of_mem mem) (fun b mem => ?_) (carries fits).rises free quiet enough
    rw [under, named b mem]
    rfl

def twoSettled (w : World) (n : Nat) (blocks : List Block) : Bool :=
  w.traffic.calls.isEmpty && w.traffic.buffer.entries.values.all (fun e => decide (e.block ∈ blocks))
    && blocks.length == 2 && match w.ended with
      | [(m, 0, .ok (.block _))] => m == n
      | _ => false

theorem of_twoSettled {blocks : List Block} (settled : w.twoSettled n blocks = true) :
    ∃ first, (n, 0, .ok (.block first)) ∈ w.ended ∧ blocks.length = 2 ∧ w.traffic.calls = [] ∧
      ∀ root, w.traffic.Only root blocks := by
  simp only [twoSettled, Bool.and_eq_true, List.isEmpty_iff, List.all_eq_true, decide_eq_true_eq,
    beq_iff_eq] at settled
  obtain ⟨⟨⟨calls, entries⟩, two⟩, ended⟩ := settled
  split at ended
  · rename_i m first same
    obtain rfl : m = n := by simpa using ended
    refine ⟨first, same ▸ List.mem_singleton.mpr rfl, two, calls, fun root => ⟨?_, ?_⟩⟩
    · exact fun name e listed _ => entries e (List.mem_map_of_mem (f := Prod.snd) listed)
    · intro who block deadline woken listed
      rw [calls] at listed
      contradiction
  · contradiction

def byTwos : List Event := [.newSegmenter "s" { blockSize := 2 }]

theorem byTwos_segmenter (config : Buffer.Config) (key : Ed25519.SigningKey) :
    (reached config key byTwos).segmenters.find? "s" =
      some ⟨{ blockSize := 2 }, 0, none, none⟩ := rfl

/-- Three bytes in two blocks are read in two rounds, and in the third nothing comes
until its time runs out. -/
theorem threeBytes_read_back :
    let config : Buffer.Config := { mode := .persistent }
    let put := Event.write "s" ⟨[⟨[97]⟩]⟩ [1, 2, 3] { isFinal := true }
    let t := (reached config Segmenter.exampleKey (byTwos ++ [put])).traffic
    ∃ first blocks,
      (1, 0, .ok (.block first)) ∈ (reached config Segmenter.exampleKey (byTwos ++ [put])).ended ∧
      Segmenter.Carry blocks [1, 2, 3] 2 true ∧
      t.readAll (.serve 0) (List.replicate 3 ⟨[], 5, [.tick 5]⟩) (.ofName first.name.segmentRoot) =
        (blocks, some (.ok .nothing)) := by
  intro config put t
  let w := reached config Segmenter.exampleKey byTwos
  let s : Segmenter := ⟨{ blockSize := 2 }, 0, none, none⟩
  let blocks := s.plannedBlocks w.keys (Int64.ofNat (1000 * w.now)) ⟨[⟨[97]⟩]⟩ [1, 2, 3]
    { isFinal := true }
  have settled : (reached config Segmenter.exampleKey (byTwos ++ [put])).twoSettled 1 blocks = true := by
    decide +kernel
  obtain ⟨first, ended, two, calls, only⟩ := of_twoSettled settled
  obtain ⟨-, reads⟩ := write_reads_back config Segmenter.exampleKey byTwos "s" s
    (byTwos_segmenter config Segmenter.exampleKey) ⟨[⟨[97]⟩]⟩ [1, 2, 3] { isFinal := true }
  obtain ⟨-, -, carried⟩ := reads rfl [] trivial 0 first ended
  obtain ⟨carry, read⟩ := carried (by decide +kernel)
  refine ⟨first, blocks, ended, carry, read (.serve 0) _ (only _) ?_ ?_ ?_⟩
  · rw [Traffic.call?, calls]
    rfl
  · intro r mem
    rw [List.eq_of_mem_replicate mem]
    exact ⟨by simp, by simp [Traffic.Move.Spares, Traffic.Move.caller?], Nat.le_refl 5⟩
  · rw [List.length_replicate, two]
    decide

end World

end NamedContent
