import Mathlib
import NamedContent.Segmenter.Plan

/-!
# Pieces and their numbers

The pieces of some data make up the data again, and all of them but the last
have the block size. Their numbers are partial sums of steps, as long as the
sums fit 64 bits; a sum that does not fit stays at the greatest number.
-/

set_option autoImplicit false

namespace NamedContent

section Pieces

variable {α : Type}

theorem pieces_flatten (size count : Nat) (l : List α) :
    (pieces size count l).flatten = l.take (size * count) := by
  induction count generalizing l with
  | zero => simp [pieces]
  | succ count ih => rw [pieces, List.flatten_cons, ih, Nat.mul_succ, Nat.add_comm, List.take_add]

theorem pieces_dropLast (size count : Nat) (l : List α) :
    (pieces size (count + 1) l).dropLast = pieces size count l := by
  induction count generalizing l with
  | zero => rfl
  | succ count ih =>
    have some : pieces size (count + 1) (l.drop size) ≠ [] := by simp [pieces]
    rw [pieces, List.dropLast_cons_of_ne_nil some, ih, pieces]

theorem length_of_mem_pieces {size count : Nat} {l : List α} (enough : size * count ≤ l.length)
    {piece : List α} (mem : piece ∈ pieces size count l) : piece.length = size := by
  induction count generalizing l with
  | zero => contradiction
  | succ count ih =>
    rw [Nat.mul_succ] at enough
    rcases List.mem_cons.mp mem with rfl | later
    · rw [List.length_take]
      omega
    · apply ih _ later
      rw [List.length_drop]
      omega

end Pieces

namespace Numbering

variable (numbering : Numbering)

theorem step_pos (bytes : Nat) : 0 < numbering.step bytes := by
  cases numbering with
  | fixedIncrement n => exact Nat.lt_of_lt_of_le Nat.one_pos (Nat.le_max_right _ _)
  | byteCount => exact Nat.lt_of_lt_of_le Nat.one_pos (Nat.le_max_right _ _)
  | scaledByteCount scale => exact Nat.lt_of_lt_of_le Nat.one_pos (Nat.le_max_right _ _)

theorem next_toNat (previous : UInt64) (bytes : Nat) : (numbering.next previous bytes).toNat =
    min (previous.toNat + numbering.step bytes) (UInt64.size - 1) := by
  apply UInt64.toNat_ofNat_of_lt'
  have positive : 0 < UInt64.size := by decide
  omega

/-- How far segments with these payloads move the number, if it has no bound. -/
def span (payloads : List Bytes) : Nat :=
  (payloads.map fun payload => numbering.step payload.length).sum

theorem span_cons (payload : Bytes) (rest : List Bytes) :
    numbering.span (payload :: rest) = numbering.step payload.length + numbering.span rest :=
  List.sum_cons

theorem span_append (first rest : List Bytes) :
    numbering.span (first ++ rest) = numbering.span first + numbering.span rest := by
  simp [span]

theorem span_take_le (payloads : List Bytes) {i j : Nat} (le : i ≤ j) :
    numbering.span (payloads.take i) ≤ numbering.span (payloads.take j) := by
  obtain ⟨k, rfl⟩ := Nat.exists_eq_add_of_le le
  rw [List.take_add, span_append]
  exact Nat.le_add_right _ _

theorem span_take_lt (payloads : List Bytes) {i j : Nat} (lt : i < j) (inside : j ≤ payloads.length) :
    numbering.span (payloads.take i) < numbering.span (payloads.take j) := by
  have here : i < payloads.length := lt.trans_le inside
  calc numbering.span (payloads.take i)
      < numbering.span (payloads.take i) + numbering.step payloads[i].length :=
        Nat.lt_add_of_pos_right (numbering.step_pos _)
    _ = numbering.span (payloads.take (i + 1)) := by
        rw [List.take_succ_eq_append_getElem here, span_append]
        rfl
    _ ≤ numbering.span (payloads.take j) := numbering.span_take_le payloads lt

end Numbering

namespace Segmenter

section Cut

variable {blockSize : Nat} {data : Bytes}

theorem cut_eq (positive : 0 < blockSize) (some : 0 < data.length) :
    ∃ full, cut blockSize data = pieces blockSize (full + 1) data ∧
      blockSize * full < data.length ∧ data.length ≤ blockSize * (full + 1) := by
  refine ⟨(data.length - 1) / blockSize, ?_, ?_, ?_⟩
  · have count : (data.length + blockSize - 1) / blockSize = (data.length - 1) / blockSize + 1 := by
      rw [show data.length + blockSize - 1 = data.length - 1 + blockSize by omega,
        Nat.add_div_right _ positive]
    rw [cut, count]
  · have below := Nat.mul_div_le (data.length - 1) blockSize
    omega
  · have above := Nat.lt_mul_div_succ (data.length - 1) positive
    omega

theorem cut_flatten (positive : 0 < blockSize) (some : 0 < data.length) :
    (cut blockSize data).flatten = data := by
  obtain ⟨full, eq, -, enough⟩ := cut_eq positive some
  rw [eq, pieces_flatten, List.take_of_length_le enough]

theorem cut_ne_nil (positive : 0 < blockSize) (some : 0 < data.length) : cut blockSize data ≠ [] := by
  obtain ⟨full, eq, -⟩ := cut_eq positive some
  simp [eq, pieces]

theorem length_of_mem_cut_dropLast (positive : 0 < blockSize) (some : 0 < data.length)
    {piece : Bytes} (mem : piece ∈ (cut blockSize data).dropLast) : piece.length = blockSize := by
  obtain ⟨full, eq, below, -⟩ := cut_eq positive some
  rw [eq, pieces_dropLast] at mem
  exact length_of_mem_pieces below.le mem

end Cut

section Number

variable (numbering : Numbering) (root : Name) (n : UInt64) (payloads : List Bytes)

theorem number_payloads : (number numbering root n payloads).1.map Draft.payload = payloads := by
  induction payloads generalizing n with
  | nil => rfl
  | cons payload rest ih => rw [number, List.map_cons, ih]

theorem number_length : (number numbering root n payloads).1.length = payloads.length := by
  rw [← List.length_map Draft.payload, number_payloads]

variable {numbering root n payloads}

theorem number_name {d : Draft} (mem : d ∈ (number numbering root n payloads).1) :
    d.name = root.segmentName d.sequence := by
  induction payloads generalizing n with
  | nil => contradiction
  | cons payload rest ih =>
    rw [number] at mem
    rcases List.mem_cons.mp mem with rfl | later
    · rfl
    · exact ih later

theorem number_after : (number numbering root n payloads).2.toNat =
    min (n.toNat + numbering.span payloads) (UInt64.size - 1) := by
  induction payloads generalizing n with
  | nil =>
    have below := n.toNat_lt
    show n.toNat = min (n.toNat + 0) _
    rw [Nat.add_zero, Nat.min_eq_left]
    exact Nat.le_sub_one_of_lt below
  | cons payload rest ih =>
    rw [number]
    show (number numbering root _ rest).2.toNat = _
    rw [ih, Numbering.next_toNat, Numbering.span_cons]
    omega

theorem number_sequence {i : Nat} (inside : i < (number numbering root n payloads).1.length) :
    (number numbering root n payloads).1[i].sequence.toNat =
      min (n.toNat + numbering.span (payloads.take i)) (UInt64.size - 1) := by
  induction payloads generalizing n i with
  | nil => contradiction
  | cons payload rest ih =>
    cases i with
    | zero =>
      have below := n.toNat_lt
      show n.toNat = min (n.toNat + 0) _
      rw [Nat.add_zero, Nat.min_eq_left]
      exact Nat.le_sub_one_of_lt below
    | succ i =>
      have later : i < (number numbering root (numbering.next n payload.length) rest).1.length := by
        rw [number] at inside
        exact Nat.lt_of_succ_lt_succ inside
      show (number numbering root _ rest).1[i].sequence.toNat = _
      rw [ih later, Numbering.next_toNat, List.take_succ_cons, Numbering.span_cons]
      omega

theorem number_rises (fits : n.toNat + numbering.span payloads.dropLast ≤ UInt64.size - 1) :
    (number numbering root n payloads).1.Pairwise fun d e => d.sequence < e.sequence := by
  rw [List.pairwise_iff_getElem]
  intro i j hi hj lt
  rw [UInt64.lt_iff_toNat_lt, number_sequence, number_sequence]
  have inside : j < payloads.length := by rwa [number_length] at hj
  have less := numbering.span_take_lt payloads lt inside.le
  have most := numbering.span_take_le payloads (show j ≤ payloads.length - 1 by omega)
  rw [← List.dropLast_eq_take] at most
  omega

theorem number_lt_after_iff (some : payloads ≠ []) :
    (∀ d ∈ (number numbering root n payloads).1,
      d.sequence < (number numbering root n payloads).2) ↔
      n.toNat + numbering.span payloads.dropLast < UInt64.size - 1 := by
  have length := List.length_pos_iff.mpr some
  have last : payloads.length - 1 < (number numbering root n payloads).1.length := by
    rw [number_length]
    omega
  constructor
  · intro below
    have lt := below _ (List.getElem_mem last)
    rw [UInt64.lt_iff_toNat_lt, number_sequence, number_after, ← List.dropLast_eq_take] at lt
    omega
  · intro fits d mem
    obtain ⟨i, hi, rfl⟩ := List.getElem_of_mem mem
    rw [UInt64.lt_iff_toNat_lt, number_sequence, number_after]
    have inside : i < payloads.length := by rwa [number_length] at hi
    have less := numbering.span_take_lt payloads inside (Nat.le_refl _)
    have most := numbering.span_take_le payloads (show i ≤ payloads.length - 1 by omega)
    rw [List.take_length] at less
    rw [← List.dropLast_eq_take] at most
    omega

end Number

end Segmenter

end NamedContent
