import Mathlib
import NamedContent.Proofs.Segmenter.Continuing
import NamedContent.Proofs.Segmenter.Rising
import NamedContent.Proofs.World.Retrying

/-!
# Streams over many puts

A segmenter goes from put to put, and whatever else happens in the world in between, its
numbering goes on where the puts under its root have left it. Only those of a block or
more that have arrived count.
-/

set_option autoImplicit false

namespace NamedContent

namespace World

variable {config : Buffer.Config} {key : Ed25519.SigningKey} {id : String} {root : Name}
  {numbering : Numbering} {acts : List Act} {s : Segmenter} {data : Bytes} {streamed : List Block}

/-- What has become, by these acts, of a segmenter whose numbering began among them and
all of whose puts since then were under this root: the segmenter now, the data of its
puts of a block or more that have arrived, and the blocks that these puts handed over. -/
inductive History (config : Buffer.Config) (key : Ed25519.SigningKey) (id : String) (root : Name)
    (numbering : Numbering) : List Act → Segmenter → Bytes → List Block → Prop where
  | opened {acts : List Act} {settings : Segmenter.Config} {s : Segmenter}
      (begun : Segmenter.ofConfig settings = .ok s) (policy : settings.numbering = numbering) :
      History config key id root numbering (acts ++ [.event (.newSegmenter id settings)]) s [] []
  | renumbered {acts : List Act} {s s' : Segmenter}
      (filed : (lived config key acts).segmenters.find? id = some s)
      (begun : s.setNumbering numbering = .ok s') :
      History config key id root numbering (acts ++ [.event (.setNumbering id numbering)]) s' [] []
  | later {acts : List Act} {s : Segmenter} {data : Bytes} {streamed : List Block}
      (past : History config key id root numbering acts s data streamed) (more : List Act) :
      History config key id root numbering (acts ++ more) s data streamed
  | resized {acts : List Act} {s s' : Segmenter} {data : Bytes} {streamed : List Block} {size : Nat}
      (past : History config key id root numbering acts s data streamed)
      (filed : (lived config key acts).segmenters.find? id = some s)
      (set : s.setBlockSize size = .ok s') :
      History config key id root numbering (acts ++ [.event (.setBlockSize id size)]) s' data streamed
  /-- A put ends well, and counts if it fills a block. -/
  | arrived {acts after : List Act} {s s' : Segmenter} {data : Bytes} {streamed : List Block}
      {name : Name} {content : Bytes} {options : Segmenter.Options} {time : Nat} {answer : Answer}
      (past : History config key id root numbering acts s data streamed)
      (filed : (lived config key acts).segmenters.find? id = some s)
      (rooted : name.segmentRoot = root)
      (ended : (acts.length, time, .ok answer) ∈
        (lived config key (acts ++ .event (.write id name content options) :: after)).ended)
      (returned : (acts.length, .segmenter id s') ∈
        (lived config key (acts ++ .event (.write id name content options) :: after)).returned)
      {part : Bytes} (sliced : Segmenter.slice content options = .ok part) :
      History config key id root numbering
        (acts ++ .event (.write id name content options) :: after) s'
        (data ++ if part.length < s.config.blockSize then [] else part)
        (streamed ++ if part.length < s.config.blockSize then [] else
          (lived config key acts).handedThrough acts.length acts.length
            (.event (.write id name content options) :: after))
  /-- A put fails, or is given up at whichever block, and does not count. -/
  | lost {acts after : List Act} {s s' : Segmenter} {data : Bytes} {streamed : List Block}
      {name : Name} {content : Bytes} {options : Segmenter.Options}
      (past : History config key id root numbering acts s data streamed)
      (filed : (lived config key acts).segmenters.find? id = some s)
      (rooted : name.segmentRoot = root)
      (leaves : (lived config key
        (acts ++ .event (.write id name content options) :: after)).Leaves acts.length id s') :
      History config key id root numbering
        (acts ++ .event (.write id name content options) :: after) s' data streamed

theorem History.continues (h : History config key id root numbering acts s data streamed) :
    s.Continues root numbering streamed ∧ (streamed.map Block.payload).flatten = data := by
  induction h with
  | opened begun policy => exact ⟨policy ▸ Segmenter.continues_of_ofConfig begun root, rfl⟩
  | renumbered filed begun => exact ⟨Segmenter.continues_of_setNumbering begun root, rfl⟩
  | later past more ih => exact ih
  | resized past filed set ih => exact ⟨ih.1.setBlockSize set, ih.2⟩
  | @arrived acts after s s' data streamed name content options time answer past filed rooted ended
      returned part sliced ih =>
    obtain ⟨going, flatten⟩ := ih
    obtain ⟨whole, arrives, same⟩ :=
      (lived_course config key filed name content options after).arrived _ _ _ ended returned
    obtain ⟨-, rfl⟩ := Loan.segmenter.inj same
    rw [handedThrough_of_arrived config key filed name content options after ended]
    refine ⟨going.completed rooted sliced arrives, ?_⟩
    rw [List.map_append, List.flatten_append, flatten]
    split
    · rfl
    · obtain ⟨_, _, w, sliced', prepared, blocks, -⟩ := Segmenter.completed?_eq_some arrives
      rw [blocks, prepared.flatten, Except.ok.inj (sliced'.symm.trans sliced)]
  | @lost acts after s s' data streamed name content options past filed rooted leaves ih =>
    obtain ⟨going, flatten⟩ := ih
    have course := lived_course config key filed name content options after
    rw [course.attempt.eq_of_leaves leaves]
    exact ⟨going.leftBy rooted, flatten⟩

/-- A segmenter is opened, or its numbering is set, and from then on it puts under one
root, with any block sizes; puts may be short, final, fail or be given up. The blocks of
its puts of a block or more that have arrived carry the data of these puts, in order,
and each has the number of its place: its index times the increment, its offset in the
data, or the units of the blocks before it, up to the greatest number. The blocks of any
further put under the root, a short one too, are numbered on from there. -/
theorem numbering_continues
    (history : History config key id root numbering acts s data streamed) :
    (streamed.map Block.payload).flatten = data ∧
    (∀ (i : Nat) (inside : i < streamed.length), streamed[i].sequence.toNat =
      min (numbering.place ((streamed.take i).map Block.payload)) (UInt64.size - 1)) ∧
    ∀ keys timestamp name content options, name.segmentRoot = root →
      let blocks := s.plannedBlocks keys timestamp name content options
      (blocks ≠ [] → Segmenter.slice content options = .ok (blocks.map Block.payload).flatten) ∧
      ∀ (i : Nat) (inside : i < blocks.length), blocks[i].sequence.toNat =
        min (numbering.place ((streamed ++ blocks.take i).map Block.payload))
          (UInt64.size - 1) := by
  obtain ⟨going, flatten⟩ := history.continues
  refine ⟨flatten, ?_, fun keys timestamp name content options rooted => ?_⟩
  · exact going.numbered.place going.valid fun b mem =>
      going.filled b (List.mem_of_mem_dropLast (List.nil_append streamed.dropLast ▸ mem))
  · obtain ⟨sliced, numbers, filled⟩ := going.planned rooted keys timestamp content options
    refine ⟨sliced, numbers.place going.valid fun b mem => ?_⟩
    exact (List.mem_append.mp mem).elim (going.filled b) (filled b)

def byteCounted : List Act :=
  [.event (.newSegmenter "s" { blockSize := 2, numbering := .byteCount })]

/-- After a put of three bytes what is put next is numbered from 3 on, even if it does
not fill a block. -/
theorem numbering_continues_three :
    let root : Name := ⟨[⟨[97]⟩]⟩
    let s : Segmenter := ⟨{ blockSize := 2, numbering := .byteCount }, 3, some root, some root⟩
    ∃ streamed, History {} Segmenter.exampleKey "s" root .byteCount
        (byteCounted ++ [.event (.write "s" root [1, 2, 3] {})]) s [1, 2, 3] streamed ∧
      (streamed.map Block.payload).flatten = [1, 2, 3] ∧
      ∀ keys timestamp (some : 0 < (s.plannedBlocks keys timestamp root [4] {}).length),
        (s.plannedBlocks keys timestamp root [4] {})[0].sequence.toNat = 3 := by
  intro root s
  have run : (∃ x ∈ (lived {} Segmenter.exampleKey
        (byteCounted ++ [.event (.write "s" root [1, 2, 3] {})])).ended,
          x.1 = 1 ∧ x.2.2.isOk = true) ∧
      (1, .segmenter "s" s) ∈ (lived {} Segmenter.exampleKey
        (byteCounted ++ [.event (.write "s" root [1, 2, 3] {})])).returned := by
    decide +kernel
  obtain ⟨⟨⟨_, time, outcome⟩, ended, rfl, ok⟩, returned⟩ := run
  cases outcome with
  | error => cases ok
  | ok answer =>
    have opened : History {} Segmenter.exampleKey "s" root .byteCount ([] ++ byteCounted) _ [] [] :=
      .opened rfl rfl
    rw [List.nil_append] at opened
    have history : History {} Segmenter.exampleKey "s" root .byteCount
        (byteCounted ++ [.event (.write "s" root [1, 2, 3] {})]) s [1, 2, 3] _ :=
      opened.arrived rfl rfl ended returned rfl
    obtain ⟨flatten, -, further⟩ := numbering_continues history
    refine ⟨_, history, flatten, fun keys timestamp some => ?_⟩
    rw [(further keys timestamp root [4] {} rfl).2 0 some, List.take_zero, List.append_nil,
      Numbering.place, flatten]
    rfl

end World

end NamedContent
