import Mathlib
import NamedContent.Proofs.Segmenter.Planning

/-!
# The numbers of one put

The blocks of a put have rising numbers and so different names, and a put of a
full block or more leaves the numbering above all numbers that it used. There is
one exception: a number that would pass 64 bits stays at the greatest, and then
all blocks from there on have one name.
-/

set_option autoImplicit false

namespace NamedContent

namespace Segmenter

/-- The numbers of a put rise, its blocks have different names, and the numbering
ends above them, exactly if the last block of a put of a full block or more is
numbered below the greatest number. -/
theorem plan_rises_iff (s : Segmenter) (keys : KeyRing) (timestamp : Int64) (name : Name)
    (content : Bytes) (options : Options) (plan : Plan) (w : Writing)
    (planned : s.plan keys timestamp name content options = .ok plan)
    (written : plan.writing = .ok w) :
    ∃ data, slice content options = .ok data ∧
      ((w.blocks.Pairwise (fun b c => b.sequence < c.sequence) ∧
        (w.blocks.map Block.name).Nodup ∧
        (s.config.blockSize ≤ data.length →
          ∀ b ∈ w.blocks, b.sequence < (plan.segmenter.complete w).1.next)) ↔
      (s.config.blockSize ≤ data.length →
        plan.segmenter.next.toNat +
          s.config.numbering.span (cut s.config.blockSize data).dropLast < UInt64.size - 1)) := by
  obtain ⟨data, key, sliced, -, entered, -, writing⟩ := plan_eq_ok planned
  rw [writing] at written
  have prepared := prepare_eq_ok written
  have config : plan.segmenter.config = s.config := by
    rw [entered]
    rfl
  refine ⟨data, sliced, ?_⟩
  -- a short put has one block and leaves the numbering alone
  by_cases full : data.length < s.config.blockSize
  · have fits : plan.segmenter.Fits data := by
      have below := plan.segmenter.next.toNat_lt
      rw [Fits, payloads, config, if_pos full]
      exact Nat.le_sub_one_of_lt below
    refine iff_of_true ⟨prepared.rises fits, prepared.names_nodup fits, ?_⟩ ?_
    · exact fun long => absurd full (Nat.not_lt.mpr long)
    · exact fun long => absurd full (Nat.not_lt.mpr long)
  · rw [complete_next]
    have long : s.config.blockSize ≤ data.length := Nat.not_lt.mp full
    have pieces : plan.segmenter.payloads data = cut s.config.blockSize data := by
      rw [payloads, config, if_neg full]
    have after := prepared.sequence_lt_next_iff (config.symm ▸ full)
    rw [pieces, config] at after
    constructor
    · intro rises _
      exact after.mp (rises.2.2 long)
    · intro below
      have fits : plan.segmenter.Fits data := by
        rw [Fits, pieces, config]
        exact (below long).le
      exact ⟨prepared.rises fits, prepared.names_nodup fits, fun _ => after.mpr (below long)⟩

def byTens (next : UInt64) : Segmenter := ⟨⟨1, .fixedIncrement 10⟩, next, none, none⟩

def plannedNumbers (s : Segmenter) (content : Bytes) : Option (List UInt64) :=
  match s.plan (.ofKey exampleKey) 0 .root content {} with
  | .ok plan => match plan.writing with
    | .ok w => some (w.blocks.map Block.sequence)
    | .error _ => none
  | .error _ => none

theorem of_plannedNumbers {s : Segmenter} {content : Bytes} {numbers : List UInt64}
    (planned : s.plannedNumbers content = some numbers) : ∃ plan w,
      s.plan (.ofKey exampleKey) 0 .root content {} = .ok plan ∧ plan.writing = .ok w ∧
        w.blocks.map Block.sequence = numbers := by
  rw [plannedNumbers] at planned
  split at planned
  · rename_i plan eq
    split at planned
    · rename_i w written
      exact ⟨plan, w, eq, written, Option.some.inj planned⟩
    · contradiction
  · contradiction

theorem byTens_rises : ∃ plan w,
    (byTens 0).plan (.ofKey exampleKey) 0 .root [1, 2] {} = .ok plan ∧ plan.writing = .ok w ∧
      w.blocks.map Block.sequence = [0, 10] ∧
      ∃ data, slice [1, 2] {} = .ok data ∧
        ((w.blocks.Pairwise (fun b c => b.sequence < c.sequence) ∧
          (w.blocks.map Block.name).Nodup ∧
          (1 ≤ data.length → ∀ b ∈ w.blocks, b.sequence < (plan.segmenter.complete w).1.next)) ↔
        (1 ≤ data.length → plan.segmenter.next.toNat +
          (Numbering.fixedIncrement 10).span (cut 1 data).dropLast < UInt64.size - 1)) := by
  have numbers : (byTens 0).plannedNumbers [1, 2] = some [0, 10] := by decide +kernel
  obtain ⟨plan, w, planned, written, same⟩ := of_plannedNumbers numbers
  exact ⟨plan, w, planned, written, same,
    plan_rises_iff (byTens 0) (.ofKey exampleKey) 0 .root [1, 2] {} plan w planned written⟩

/-- Where the next number is the greatest, two blocks of one put get it, under one name. -/
theorem numbers_stand_still : ∃ opened, ofConfig (byTens 0).config = .ok opened ∧
    ∃ plan w, (opened.setNext 18446744073709551615).plan (.ofKey exampleKey) 0 .root [1, 2] {} =
        .ok plan ∧ plan.writing = .ok w ∧
      ¬w.blocks.Pairwise (fun b c => b.sequence < c.sequence) ∧ ¬(w.blocks.map Block.name).Nodup := by
  refine ⟨byTens 0, rfl, ?_⟩
  have numbers : ((byTens 0).setNext 18446744073709551615).plannedNumbers [1, 2] =
      some [18446744073709551615, 18446744073709551615] := by decide +kernel
  obtain ⟨plan, w, planned, written, same⟩ := of_plannedNumbers numbers
  refine ⟨plan, w, planned, written, ?_⟩
  obtain ⟨data, key, -, -, -, -, writing⟩ := plan_eq_ok planned
  have name {b : Block} := (prepare_eq_ok (writing ▸ written)).name (b := b)
  obtain ⟨b, rest, eq, first, later⟩ := List.map_eq_cons_iff.mp same
  obtain ⟨c, none, rfl, second, -⟩ := List.map_eq_cons_iff.mp later
  have twice : c.sequence = b.sequence := second.trans first.symm
  rw [eq] at name ⊢
  constructor
  · intro rises
    have less := (List.pairwise_cons.mp rises).1 c List.mem_cons_self
    exact UInt64.ne_of_lt less twice.symm
  · intro nodup
    have apart := (List.nodup_cons.mp nodup).1
    apply apart
    rw [name List.mem_cons_self, ← twice, ← name (List.mem_cons_of_mem _ List.mem_cons_self)]
    exact List.mem_cons_self

end Segmenter

end NamedContent
