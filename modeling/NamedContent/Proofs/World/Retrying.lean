import Mathlib
import NamedContent.Proofs.Traffic.Losses
import NamedContent.Proofs.Traffic.Occupancy
import NamedContent.Proofs.World.Handing
import NamedContent.Proofs.World.Publishing

/-!
# Puts that are tried again

Whatever goes on beside it, the put of a segmenter leaves its numbering alone until
all blocks have arrived. So when it fails or is given up, at whichever block, it can
be tried again: the same blocks come, and those that the first attempt has left in
the buffer give way to them.
-/

set_option autoImplicit false

namespace NamedContent

namespace Traffic

variable {κ : Type} [DecidableEq κ] {t : Traffic κ} {m : Move κ} {block : Block}

/-- The block takes the place of the one with its name, and what else there is stays as it is. -/
structure Replaces (t : Traffic κ) (m : Move κ) (block : Block) : Prop where
  size : (t.step m).traffic.buffer.size = t.buffer.size
  there : ∃ e, (t.step m).traffic.buffer.entries.find? block.name = some e ∧ e.block = block
  others : ∀ name, name ≠ block.name →
    (t.step m).traffic.buffer.entries.find? name = t.buffer.entries.find? name

theorem replaces_of_present (sound : t.Sound) (inserts : t.inserts? m = some block)
    (present : t.buffer.entries.contains block.name = true) : t.Replaces m block := by
  have size := put_size sound (putBlock?_of_inserts inserts) present
  obtain ⟨f, outcome, shows⟩ := t.step_explained m
  cases outcome.trade shows.answer with
  | @files who block' deadline puts tried added inserts' =>
    obtain rfl := Option.some.inj (inserts.symm.trans inserts')
    have filed := filed_of_tryInsert sound tried
    rw [Buffer.makeRoom_of_present present] at filed
    have entries : (t.step m).traffic.buffer.entries =
        t.buffer.entries.insert block.name (t.buffer.newEntry block) := by
      rw [shows.traffic]
      exact filed.entries
    refine ⟨size, ⟨t.buffer.newEntry block, ?_, rfl⟩, fun name other => ?_⟩
    · rw [entries, Table.find?_insert, if_pos rfl]
    · rw [entries, Table.find?_insert, if_neg other]
  | serves _ _ _ _ _ _ nothing | fetches _ _ _ _ _ _ nothing | neither _ nothing =>
    rw [inserts] at nothing
    contradiction

end Traffic

namespace World

variable {w : World} {n : Nat} {id : String} {left : Segmenter} {next : Option UInt64}

/-- How the task stands that tries a put. While it is at work, and after it has
failed, its segmenter is as it was left; after its good end the numbering has gone on. -/
structure Attempt (w : World) (n : Nat) (id : String) (left : Segmenter)
    (next : Option UInt64) : Prop where
  working : ∀ task, (n, task) ∈ w.tasks →
    w.Unended n ∧ ∃ block rest, task = .writing id left block rest ∧ next = some rest.next
  failed : ∀ time fault loan, (n, time, .error fault) ∈ w.ended → (n, loan) ∈ w.returned →
    loan = .segmenter id left
  done : ∀ time answer s, (n, time, .ok answer) ∈ w.ended → (n, .segmenter id s) ∈ w.returned →
    next = some s.next

theorem Course.attempt {whole : Option Segmenter} (h : w.Course n id left whole) :
    w.Attempt n id left (whole.map Segmenter.next) where
  working := fun task mem => by
    obtain ⟨unended, block, rest, rfl, rfl⟩ := h.working task mem
    exact ⟨unended, block, rest, rfl, congrArg some (Segmenter.complete_next left rest)⟩
  failed := h.failed
  done := fun time answer s ended returned => by
    obtain ⟨s', rfl, same⟩ := h.arrived time answer _ ended returned
    rw [(Loan.segmenter.inj same).2]
    rfl

/-- The put comes to nothing and leaves the segmenter so: it has failed, or it is given
up where it stands. -/
inductive Leaves (w : World) (n : Nat) (id : String) (s : Segmenter) : Prop where
  | failed {time : Nat} {fault : Fault} (ended : (n, time, .error fault) ∈ w.ended)
      (returned : (n, .segmenter id s) ∈ w.returned)
  | cancelled {block : Block} {rest : Segmenter.Writing}
      (here : (n, .writing id s block rest) ∈ w.tasks)

theorem Attempt.eq_of_leaves (h : w.Attempt n id left next) {s : Segmenter}
    (leaves : w.Leaves n id s) : s = left := by
  cases leaves with
  | failed ended returned => exact (Loan.segmenter.inj (h.failed _ _ _ ended returned)).2
  | cancelled here =>
    obtain ⟨-, _, _, same, -⟩ := h.working _ here
    exact (Task.writing.inj same).2.1

/-- Puts may be tried again. In any world a segmenter begins a put. If the range is bad
or there is no key, the put ends at once with an error and nothing else has changed. If
it fails later, or is given up at whichever block, the segmenter has entered the stream
and is otherwise as it was; its numbering goes on only when all blocks have arrived. So
an attempt made from what is left, at any time and with any keys, names, numbers and
fills its blocks as the first attempt did or would have done, and those of the first
attempt that are still in the buffer are replaced. -/
theorem retry_repeats (config : Buffer.Config) (key : Ed25519.SigningKey) (before : List Act)
    (id : String) (s : Segmenter)
    (filed : (lived config key before).segmenters.find? id = some s) (name : Name)
    (content : Bytes) (options : Segmenter.Options) :
    let w := lived config key before
    let n := before.length
    let put := Act.event (.write id name content options)
    let refused := Segmenter.Refused w.keys content options
    (refused → ∃ error, w.act n put = { Session.takeSegmenter w id with
        ended := w.ended ++ [(n, w.now, .error (.publish error))]
        returned := w.returned ++ [(n, .segmenter id s)] }) ∧
    ∀ after : List Act,
      let later := lived config key (before ++ put :: after)
      (∀ s', later.Leaves n id s' →
        (refused → s' = s) ∧ (¬refused → s' = (s.enter name.segmentRoot).1) ∧ s'.next ≤ s.next ∧
        ∀ keys keys' timestamp timestamp',
          let blocks := s.plannedBlocks keys timestamp name content options
          let again := s'.plannedBlocks keys' timestamp' name content options
          blocks ≠ [] → again ≠ [] → again.map Block.draft = blocks.map Block.draft ∧
            ∀ block ∈ blocks, ∃ block' ∈ again, block'.draft = block.draft ∧
              ∀ (ms : List (Traffic.Move Caller)) (m : Traffic.Move Caller),
                let t := (Traffic.ofConfig config).run ms
                t.inserts? m = some block' → t.buffer.entries.contains block.name = true →
                  t.Replaces m block') ∧
      ∀ time answer s', (n, time, .ok answer) ∈ later.ended →
        (n, .segmenter id s') ∈ later.returned →
          s.plannedNext? w.keys (Int64.ofNat (1000 * w.now)) name content options =
            some s'.next := by
  intro w n put refused
  constructor
  · intro bad
    obtain ⟨error, unplanned⟩ := (Segmenter.refused_iff s w.keys (Int64.ofNat (1000 * w.now)) name
      content options).mp bad
    exact ⟨error, step_unplanned filed (lived_unborn config key before) unplanned⟩
  · intro after later
    have attempt := (lived_course config key filed name content options after).attempt
    rw [← Segmenter.plannedNext?_eq] at attempt
    refine ⟨fun s' leaves => ?_, attempt.done⟩
    obtain rfl := attempt.eq_of_leaves leaves
    refine ⟨Segmenter.leftBy_of_refused, Segmenter.leftBy_of_planned, Segmenter.leftBy_next_le, ?_⟩
    intro keys keys' timestamp timestamp' blocks again planned planned'
    have drafts := Segmenter.same_drafts Segmenter.enter_leftBy planned planned'
    refine ⟨drafts, fun block mem => ?_⟩
    have listed : block.draft ∈ again.map Block.draft := drafts ▸ List.mem_map_of_mem mem
    obtain ⟨block', mem', same⟩ := List.mem_map.mp listed
    have name : block'.name = block.name := congrArg Draft.name same
    refine ⟨block', mem', same, ?_⟩
    intro ms m t inserts present
    exact Traffic.replaces_of_present (Traffic.run_sound config ms) inserts (name ▸ present)

def halfPut : World :=
  lived onePlace Segmenter.exampleKey (byOnes ++ [.event (.write "s" ⟨[⟨[97]⟩]⟩ [1, 2] {})])

/-- The first byte is there and the second has found no place. The put may be tried
again at any time, and with any key. -/
theorem halfPut_retried :
    let s : Segmenter := ⟨{ blockSize := 1 }, 0, none, none⟩
    let name : Name := ⟨[⟨[97]⟩]⟩
    let s' : Segmenter := ⟨{ blockSize := 1 }, 0, some name, some name⟩
    halfPut.traffic.buffer.size = 1 ∧ halfPut.Leaves 1 "s" s' ∧ s'.next ≤ s.next ∧
      ∀ keys keys' timestamp timestamp',
        s.plannedBlocks keys timestamp name [1, 2] {} ≠ [] →
          s'.plannedBlocks keys' timestamp' name [1, 2] {} ≠ [] →
            (s'.plannedBlocks keys' timestamp' name [1, 2] {}).map Block.draft =
              (s.plannedBlocks keys timestamp name [1, 2] {}).map Block.draft := by
  intro s name s'
  have fails : halfPut.traffic.buffer.size = 1 ∧
      (1, 0, .error (.publish (.capacityExceeded 1 1))) ∈ halfPut.ended ∧
      (1, .segmenter "s" s') ∈ halfPut.returned := by decide +kernel
  obtain ⟨size, ended, returned⟩ := fails
  have leaves : halfPut.Leaves 1 "s" s' := .failed ended returned
  obtain ⟨-, attempts⟩ :=
    retry_repeats onePlace Segmenter.exampleKey byOnes "s" s rfl name [1, 2] {}
  obtain ⟨-, -, stays, repeats⟩ := (attempts []).1 s' leaves
  exact ⟨size, leaves, stays, fun keys keys' timestamp timestamp' planned planned' =>
    (repeats keys keys' timestamp timestamp' planned planned').1⟩

end World

end NamedContent
