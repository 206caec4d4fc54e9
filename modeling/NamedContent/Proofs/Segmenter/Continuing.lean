import Mathlib
import NamedContent.Proofs.Segmenter.Retrying
import NamedContent.Proofs.Segmenter.Settings

/-!
# Numbering that continues

The place of a segment in a stream follows from the segments before it: by their
number, by their bytes, or by their bytes in units. The number of a segment is its
place, or the greatest number if that is passed. A put goes on from the place that the
puts before it have come to. Those that came to nothing do not count, nor do those
that did not fill a block.
-/

set_option autoImplicit false

namespace NamedContent

section Pieces

variable {α : Type}

theorem ne_nil_of_mem_pieces {size count : Nat} {l : List α} (positive : 0 < size)
    (more : size * count < l.length) {piece : List α} (mem : piece ∈ pieces size (count + 1) l) :
    piece ≠ [] := by
  induction count generalizing l with
  | zero =>
    obtain rfl : piece = l.take size := by simpa [pieces] using mem
    rw [← List.length_pos_iff, List.length_take]
    omega
  | succ count ih =>
    rw [Nat.mul_succ] at more
    rcases List.mem_cons.mp mem with rfl | later
    · rw [← List.length_pos_iff, List.length_take]
      omega
    · apply ih _ later
      rw [List.length_drop]
      omega

end Pieces

namespace Numbering

/-- Where a segment belongs that comes after segments with these payloads. -/
def place : Numbering → List Bytes → Nat
  | .fixedIncrement step, before => step.toNat * before.length
  | .byteCount, before => before.flatten.length
  | .scaledByteCount scale, before =>
    (before.map fun payload => max 1 (payload.length / scale.toNat)).sum

theorem span_eq_place {numbering : Numbering} (valid : numbering.validate = .ok ())
    {before : List Bytes} (some : ∀ payload ∈ before, payload ≠ []) :
    numbering.span before = numbering.place before := by
  cases numbering with
  | fixedIncrement step =>
    have positive : 0 < step.toNat := by
      rw [Nat.pos_iff_ne_zero]
      intro zero
      obtain rfl : step = 0 := UInt64.toNat_inj.mp zero
      cases valid
    simp only [span, Numbering.step, place, List.map_const', List.sum_replicate, smul_eq_mul]
    rw [Nat.mul_comm, Nat.max_eq_left positive]
  | byteCount =>
    rw [span, place, List.length_flatten]
    refine congrArg List.sum (List.map_congr_left fun payload mem => ?_)
    exact Nat.max_eq_left (List.length_pos_iff.mpr (some payload mem))
  | scaledByteCount scale =>
    have positive : 0 < scale.toNat := by
      rw [Nat.pos_iff_ne_zero]
      intro zero
      obtain rfl : scale = 0 := UInt64.toNat_inj.mp zero
      cases valid
    rw [span, place]
    refine congrArg List.sum (List.map_congr_left fun payload _ => ?_)
    rw [Numbering.step, Nat.max_eq_left positive, Nat.max_comm]

def Numbers (numbering : Numbering) (past blocks : List Block) : Prop :=
  ∀ (i : Nat) (inside : i < blocks.length), blocks[i].sequence.toNat =
    min (numbering.span ((past ++ blocks.take i).map Block.payload)) (UInt64.size - 1)

theorem Numbers.nil (numbering : Numbering) (past : List Block) : numbering.Numbers past [] :=
  fun i inside => absurd inside i.not_lt_zero

theorem Numbers.place {numbering : Numbering} (valid : numbering.validate = .ok ())
    {past blocks : List Block} (h : numbering.Numbers past blocks)
    (filled : ∀ b ∈ past ++ blocks.dropLast, b.payload ≠ []) (i : Nat)
    (inside : i < blocks.length) : blocks[i].sequence.toNat =
      min (numbering.place ((past ++ blocks.take i).map Block.payload)) (UInt64.size - 1) := by
  rw [h i inside, span_eq_place valid]
  intro payload mem
  obtain ⟨b, listed, rfl⟩ := List.mem_map.mp mem
  refine filled b (List.mem_append.mpr ((List.mem_append.mp listed).imp_right fun early => ?_))
  have before : blocks.take i = blocks.dropLast.take i := by
    rw [List.dropLast_eq_take, List.take_take, Nat.min_eq_left (Nat.le_sub_one_of_lt inside)]
  exact List.mem_of_mem_take (before ▸ early)

theorem Numbers.append {numbering : Numbering} {past blocks more : List Block}
    (h : numbering.Numbers past blocks) (later : numbering.Numbers (past ++ blocks) more) :
    numbering.Numbers past (blocks ++ more) := by
  intro i inside
  rw [List.getElem_append]
  split
  · rename_i early
    rw [h i early, List.take_append_of_le_length early.le]
  · rename_i late
    have here : i - blocks.length < more.length := by
      rw [List.length_append] at inside
      omega
    rw [later _ here, List.append_assoc, List.take_append,
      List.take_of_length_le (Nat.le_of_not_lt late)]

end Numbering

namespace Segmenter

variable {s s' : Segmenter} {root : Name} {numbering : Numbering} {streamed : List Block}
  {keys : KeyRing} {timestamp : Int64} {name : Name} {content data : Bytes} {options : Options}

/-- The segmenter goes on with the numbering, in a stream under the root of which these
are the blocks so far. -/
structure Continues (s : Segmenter) (root : Name) (numbering : Numbering)
    (streamed : List Block) : Prop where
  policy : s.config.numbering = numbering
  valid : numbering.validate = .ok ()
  stream : s.streamRoot = none ∨ s.streamRoot = some root
  next : s.next.toNat = min (numbering.span (streamed.map Block.payload)) (UInt64.size - 1)
  numbered : numbering.Numbers [] streamed
  filled : ∀ b ∈ streamed, b.payload ≠ []

theorem continues_of_ofConfig {config : Config} (opened : ofConfig config = .ok s) (root : Name) :
    s.Continues root config.numbering [] := by
  obtain ⟨valid, rfl⟩ := ofConfig_eq_ok.mp opened
  exact ⟨rfl, (Config.validate_eq_ok.mp valid).2, .inl rfl, rfl, nofun, nofun⟩

theorem continues_of_setNumbering (changed : s.setNumbering numbering = .ok s') (root : Name) :
    s'.Continues root numbering [] := by
  obtain ⟨valid, rfl⟩ := setNumbering_eq_ok.mp changed
  exact ⟨rfl, valid, .inl rfl, rfl, nofun, nofun⟩

theorem Prepared.payload_ne_nil {info : SignedInfo} {isFinal : Bool} {w : Writing}
    (prepared : s.Prepared root data info isFinal w) (full : ¬data.length < s.config.blockSize)
    {b : Block} (mem : b ∈ w.blocks) : b.payload ≠ [] := by
  have positive := positive_of_payloads full prepared.nonempty
  have listed : b.payload ∈ s.payloads data := prepared.map_payload ▸ List.mem_map_of_mem mem
  rw [payloads, if_neg full] at listed
  obtain ⟨pieces, eq, more, -⟩ := cut_eq positive (by omega : 0 < data.length)
  rw [eq] at listed
  exact ne_nil_of_mem_pieces positive more listed

theorem Prepared.payload_dropLast {info : SignedInfo} {isFinal : Bool} {w : Writing}
    (prepared : s.Prepared root data info isFinal w) {b : Block} (mem : b ∈ w.blocks.dropLast) :
    b.payload ≠ [] := by
  by_cases full : data.length < s.config.blockSize
  · have alone := prepared.map_payload
    rw [payloads, if_pos full] at alone
    obtain ⟨_, one, -⟩ := List.map_eq_singleton_iff.mp alone
    rw [one] at mem
    contradiction
  · exact prepared.payload_ne_nil full (List.mem_of_mem_dropLast mem)

section Continues

variable (h : s.Continues root numbering streamed)
include h

theorem Continues.setBlockSize {size : Nat} (changed : s.setBlockSize size = .ok s') :
    s'.Continues root numbering streamed := by
  obtain ⟨-, rfl⟩ := setBlockSize_eq_ok.mp changed
  exact ⟨h.policy, h.valid, h.stream, h.next, h.numbered, h.filled⟩

theorem Continues.enter : (s.enter root).1.Continues root numbering streamed := by
  have stays : (s.enter root).1.next = s.next := by
    show (if s.streamRoot.any fun current => current ≠ root then s.config.numbering.base
      else s.next) = s.next
    obtain none | same := h.stream
    · rw [none]
      rfl
    · rw [same]
      simp
  exact ⟨h.policy, h.valid, .inr rfl, stays ▸ h.next, h.numbered, h.filled⟩

theorem Continues.prepared {info : SignedInfo} {isFinal : Bool} {w : Writing}
    (prepared : s.Prepared root data info isFinal w) :
    numbering.Numbers streamed w.blocks ∧ w.next.toNat = min (numbering.span ((streamed ++
      if data.length < s.config.blockSize then [] else w.blocks).map Block.payload))
        (UInt64.size - 1) := by
  have next := h.next
  have payloads := prepared.map_payload
  constructor
  · intro i inside
    have length : i < (s.drafts root data).1.length := by
      rwa [← prepared.drafts, List.length_map]
    have draft : (s.drafts root data).1[i] = w.blocks[i].draft := by
      simp only [← prepared.drafts, List.getElem_map]
    have number : w.blocks[i].draft.sequence.toNat =
        min (s.next.toNat + s.config.numbering.span ((s.payloads data).take i))
          (UInt64.size - 1) := draft ▸ number_sequence length
    rw [← payloads, ← List.map_take, h.policy] at number
    rw [List.map_append, numbering.span_append,
      show w.blocks[i].sequence = w.blocks[i].draft.sequence from rfl, number]
    omega
  · rw [prepared.next, List.map_append, numbering.span_append]
    split
    · rw [next]
      rfl
    · rw [drafts, number_after, h.policy, payloads]
      omega

theorem Continues.complete {info : SignedInfo} {isFinal : Bool} {w : Writing}
    (prepared : s.Prepared root data info isFinal w) :
    (s.complete w).1.Continues root numbering
      (streamed ++ if data.length < s.config.blockSize then [] else w.blocks) := by
  obtain ⟨numbers, next⟩ := h.prepared prepared
  obtain ⟨config, stream⟩ := s.complete_stays w
  refine ⟨config ▸ h.policy, h.valid, stream ▸ h.stream, complete_next s w ▸ next, ?_, ?_⟩
  · split
    · exact (List.append_nil streamed).symm ▸ h.numbered
    · exact h.numbered.append numbers
  · intro b mem
    rcases List.mem_append.mp mem with old | new
    · exact h.filled b old
    · split at new
      · contradiction
      · rename_i full
        exact prepared.payload_ne_nil full new

end Continues

theorem Continues.leftBy (h : s.Continues root numbering streamed)
    (rooted : name.segmentRoot = root) :
    (s.leftBy keys timestamp name content options).Continues root numbering streamed := by
  by_cases refused : Refused keys content options
  · rw [leftBy_of_refused refused]
    exact h
  · rw [leftBy_of_planned refused, rooted]
    exact h.enter

theorem Continues.planned (h : s.Continues root numbering streamed)
    (rooted : name.segmentRoot = root) (keys : KeyRing) (timestamp : Int64) (content : Bytes)
    (options : Options) :
    let blocks := s.plannedBlocks keys timestamp name content options
    (blocks ≠ [] → slice content options = .ok (blocks.map Block.payload).flatten) ∧
    numbering.Numbers streamed blocks ∧ ∀ b ∈ blocks.dropLast, b.payload ≠ [] := by
  intro blocks
  have found : blocks = s.plannedBlocks keys timestamp name content options := rfl
  rw [plannedBlocks] at found
  split at found
  · rename_i entered holdings writing planned
    obtain ⟨data, key, sliced, -, enters, -, prepares⟩ := plan_eq_ok planned
    have prepared := prepare_eq_ok prepares.symm
    obtain rfl : entered = (s.enter name.segmentRoot).1 := enters
    rw [rooted] at prepared
    refine ⟨fun _ => ?_, ?_, ?_⟩
    · rw [found, prepared.flatten, sliced]
    · rw [found]
      exact (h.enter.prepared prepared).1
    · rw [found]
      exact fun b mem => prepared.payload_dropLast mem
  · rw [found]
    exact ⟨fun some => absurd rfl some, .nil _ _, fun b mem => absurd mem List.not_mem_nil⟩

theorem completed?_eq_some
    (arrives : s.completed? keys timestamp name content options = some s') :
    ∃ data info w, slice content options = .ok data ∧
      (s.enter name.segmentRoot).1.Prepared name.segmentRoot data info options.isFinal w ∧
      s.plannedBlocks keys timestamp name content options = w.blocks ∧
      s' = ((s.enter name.segmentRoot).1.complete w).1 := by
  rw [completed?] at arrives
  split at arrives
  · rename_i entered holdings w planned
    obtain ⟨data, key, sliced, -, enters, -, prepares⟩ := plan_eq_ok planned
    obtain rfl : entered = (s.enter name.segmentRoot).1 := enters
    obtain rfl := Option.some.inj arrives
    refine ⟨data, _, w, sliced, prepare_eq_ok prepares.symm, ?_, rfl⟩
    rw [plannedBlocks, planned]
  · contradiction

/-- A put that arrives counts with all its blocks if it fills one, and else not at all. -/
theorem Continues.completed (h : s.Continues root numbering streamed)
    (rooted : name.segmentRoot = root) (sliced : slice content options = .ok data)
    (arrives : s.completed? keys timestamp name content options = some s') :
    s'.Continues root numbering (streamed ++ if data.length < s.config.blockSize then [] else
      s.plannedBlocks keys timestamp name content options) := by
  obtain ⟨data', info, w, sliced', prepared, blocks, rfl⟩ := completed?_eq_some arrives
  obtain rfl := Except.ok.inj (sliced'.symm.trans sliced)
  rw [rooted] at prepared ⊢
  rw [blocks]
  exact h.enter.complete prepared

end Segmenter

end NamedContent
