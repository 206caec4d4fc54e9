import Mathlib
import NamedContent.Proofs.Name.Segment

/-!
# Canonical segment components

The writer of a segment component leaves leading zero bytes out, and the
reader passes over them. So what it reads is the number of the component
without them, and a component with such bytes is another spelling of a segment
that has its own. Where there is none, every number is read from one component
only, and names stand in the order of the numbers read from them.
-/

set_option autoImplicit false

namespace NamedContent

theorem ofBigEndian_zeros_append (count : Nat) (bytes : Bytes) :
    ofBigEndian (List.replicate count 0 ++ bytes) = ofBigEndian bytes := by
  induction count with
  | zero => rfl
  | succ count ih => rw [List.replicate_succ, List.cons_append, ofBigEndian_cons, ih]; simp

theorem bigEndian_ofBigEndian (bytes : Bytes) :
    bigEndian bytes.length (ofBigEndian bytes) = bytes := by
  induction bytes using List.reverseRecOn with
  | nil => rfl
  | append_singleton rest b ih =>
    have digit : b.toNat < 256 := b.toNat_lt
    have before : (ofBigEndian rest * 256 + b.toNat) / 256 = ofBigEndian rest := by omega
    have last : UInt8.ofNat (ofBigEndian rest * 256 + b.toNat) = b := by
      rw [← UInt8.toNat_inj, UInt8.toNat_ofNat']
      omega
    rw [ofBigEndian_append_singleton, List.length_append, List.length_singleton, bigEndian, before,
      last, ih]

theorem bigEndian_of_length_le {width : Nat} {bytes : Bytes} (fits : bytes.length ≤ width) :
    bigEndian width (ofBigEndian bytes) = List.replicate (width - bytes.length) 0 ++ bytes := by
  have padded := bigEndian_ofBigEndian (List.replicate (width - bytes.length) 0 ++ bytes)
  rwa [ofBigEndian_zeros_append, List.length_append, List.length_replicate,
    Nat.sub_add_cancel fits] at padded

theorem dropWhile_zeros_append (count : Nat) (bytes : Bytes) :
    (List.replicate count 0 ++ bytes).dropWhile (· == 0) = bytes.dropWhile (· == 0) := by
  induction count with
  | zero => rfl
  | succ count ih => simp [List.replicate_succ, ih]

namespace Component

theorem segmentDigits_ofBigEndian {bytes : Bytes} (fits : bytes.length ≤ 8) :
    segmentDigits (UInt64.ofNat (ofBigEndian bytes)) = bytes.dropWhile (· == 0) := by
  have below : ofBigEndian bytes < UInt64.size :=
    (ofBigEndian_lt bytes).trans_le (Nat.pow_le_pow_right (by decide) fits)
  rw [segmentDigits, UInt64.toNat_ofNat', Nat.mod_eq_of_lt below, bigEndian_of_length_le fits,
    dropWhile_zeros_append]

/-- The component is read as a segment number although its digits begin with a zero. -/
def isPadded (c : Component) : Bool :=
  match c.bytes with
  | marker :: first :: rest => marker == segmentMarker && first == 0 && decide (rest.length < 8)
  | _ => false

theorem segment_injective : Function.Injective segment := by
  intro a b same
  have read := segmentNumber?_segment a
  rw [same, segmentNumber?_segment] at read
  exact (Option.some.inj read).symm

/-- A number is read from a component exactly if the component is the marker with
digits, and leaving out the zeros in front of them gives the segment of that number. -/
theorem segmentNumber?_eq_some {c : Component} {n : UInt64} : c.segmentNumber? = some n ↔
    ∃ digits, c.bytes = segmentMarker :: digits ∧ digits.length ≤ 8 ∧
      segment n = ⟨segmentMarker :: digits.dropWhile (· == 0)⟩ := by
  obtain ⟨bytes⟩ := c
  constructor
  · intro read
    cases bytes with
    | nil => contradiction
    | cons marker digits =>
      obtain ⟨⟨rfl, fits⟩, rfl⟩ : (marker = segmentMarker ∧ digits.length ≤ 8) ∧
          UInt64.ofNat (ofBigEndian digits) = n := by
        simpa [segmentNumber?, Option.ite_none_right_eq_some] using read
      refine ⟨digits, rfl, fits, ?_⟩
      rw [← segmentDigits_ofBigEndian fits]
      rfl
  · rintro ⟨digits, rfl, fits, trimmed⟩
    have same : segment (UInt64.ofNat (ofBigEndian digits)) = segment n := by
      rw [trimmed, ← segmentDigits_ofBigEndian fits]
      rfl
    obtain rfl := segment_injective same
    simp [segmentNumber?, fits]

theorem compare_segment_of_segmentNumber? {c : Component} {m n : UInt64}
    (read : c.segmentNumber? = some n) (less : m < n) : compare (segment m) c = .lt := by
  obtain ⟨digits, bytes, -, trimmed⟩ := segmentNumber?_eq_some.mp read
  obtain ⟨_⟩ := c
  subst bytes
  have same : segmentDigits n = digits.dropWhile (· == 0) :=
    (List.cons.inj (congrArg Component.bytes trimmed)).2
  apply compare_segment_of_lt
  rw [← ofBigEndian_dropWhile_zero, ← same, ofBigEndian_segmentDigits]
  exact UInt64.lt_iff_toNat_lt.mp less

theorem segment_unpadded (n : UInt64) : (segment n).isPadded = false := by
  show isPadded ⟨segmentMarker :: segmentDigits n⟩ = false
  cases digits : segmentDigits n with
  | nil => rfl
  | cons first rest => simp [isPadded, segmentDigits_head n digits]

theorem isPadded_iff {c : Component} :
    c.isPadded = true ↔ ∃ n, c.segmentNumber? = some n ∧ c ≠ segment n := by
  constructor
  · intro padded
    obtain ⟨bytes⟩ := c
    match bytes, padded with
    | marker :: first :: rest, padded =>
      obtain ⟨⟨rfl, rfl⟩, fits⟩ : (marker = segmentMarker ∧ first = 0) ∧ rest.length < 8 := by
        simpa [isPadded] using padded
      have number : (⟨segmentMarker :: 0 :: rest⟩ : Component).segmentNumber? =
          some (UInt64.ofNat (ofBigEndian (0 :: rest))) := by
        simpa [segmentNumber?] using fits
      refine ⟨_, number, ?_⟩
      intro same
      have unpadded := segment_unpadded (UInt64.ofNat (ofBigEndian (0 :: rest)))
      rw [← same, padded] at unpadded
      contradiction
  · rintro ⟨n, read, other⟩
    obtain ⟨digits, bytes, fits, trimmed⟩ := segmentNumber?_eq_some.mp read
    obtain ⟨_⟩ := c
    subst bytes
    rw [trimmed] at other
    match digits with
    | [] => exact absurd rfl other
    | first :: rest =>
      by_cases zero : first = 0
      · have fits : rest.length < 8 := by simpa using fits
        simp [isPadded, zero, fits]
      · simp [zero] at other

theorem segmentNumber?_iff_of_unpadded {c : Component} (plain : c.isPadded = false) (n : UInt64) :
    c.segmentNumber? = some n ↔ c = segment n := by
  constructor
  · intro read
    by_contra other
    rw [isPadded_iff.mpr ⟨n, read, other⟩] at plain
    contradiction
  · rintro rfl
    exact segmentNumber?_segment n

/-- A component is free of zeros in front of its digits exactly if it is read as
the numbers whose segment it is and as no other; exactly if no other such
component is read as its number; and exactly if under every root it stands
among them where its number does. -/
theorem recognised_iff_unpadded (c : Component) :
    ((∀ n, c.segmentNumber? = some n ↔ c = segment n) ↔ c.isPadded = false) ∧
    ((∀ d n, d.isPadded = false → c.segmentNumber? = some n → d.segmentNumber? = some n → c = d) ↔
      c.isPadded = false) ∧
    ((∀ (r : Name) d a b, d.isPadded = false → c.segmentNumber? = some a →
      d.segmentNumber? = some b → compare (r.append c) (r.append d) = compare a b) ↔
      c.isPadded = false) := by
  have unlike (alike : ∀ n, c.segmentNumber? = some n → c = segment n) : c.isPadded = false := by
    rw [Bool.eq_false_iff]
    intro padded
    obtain ⟨n, read, other⟩ := isPadded_iff.mp padded
    exact other (alike n read)
  refine ⟨⟨?_, segmentNumber?_iff_of_unpadded⟩, ⟨?_, ?_⟩, ⟨?_, ?_⟩⟩
  · intro encoded
    exact unlike fun n => (encoded n).mp
  · intro alone
    exact unlike fun n read => alone _ n (segment_unpadded n) read (segmentNumber?_segment n)
  · intro plain d n plain' read read'
    rw [(segmentNumber?_iff_of_unpadded plain n).mp read,
      (segmentNumber?_iff_of_unpadded plain' n).mp read']
  · intro ordered
    refine unlike fun n read => ?_
    have level := ordered .root _ n n (segment_unpadded n) read (segmentNumber?_segment n)
    rw [Name.compare_append, Std.ReflOrd.compare_self] at level
    exact Std.LawfulEqOrd.eq_of_compare level
  · intro plain r d a b plain' read read'
    rw [Name.compare_append, (segmentNumber?_iff_of_unpadded plain a).mp read,
      (segmentNumber?_iff_of_unpadded plain' b).mp read', compare_segment]

/-- One more zero makes another component of the number 1, which stands after segment 2. -/
theorem padded_one_misplaced :
    let padded : Component := ⟨[0, 0, 1]⟩
    padded.segmentNumber? = some 1 ∧ padded ≠ segment 1 ∧ (segment 1).segmentNumber? = some 1 ∧
      compare (Name.root.append padded) (Name.root.append (segment 2)) = .gt ∧
      compare (1 : UInt64) 2 = .lt := by
  decide

end Component

namespace Name

/-- The number of a segment is read back from its name, the names under one root
are ordered as the numbers are, what follows a segment are those with greater
numbers, and naming a segment from a segment leads to the same root. -/
theorem segmentName_numbered (r : Name) (a b : UInt64) :
    (r.segmentName a).segmentNumber? = some a ∧
      compare (r.segmentName a) (r.segmentName b) = compare a b ∧
      ((Interest.nextAfter (r.segmentName a)).accepts (r.segmentName b) = true ↔ a < b) ∧
      (r.segmentName a).segmentName b = r.segmentName b := by
  refine ⟨segmentNumber?_append _ a, compare_segmentName r a b,
    Interest.accepts_nextAfter_append r.segmentRoot a b, ?_⟩
  rw [segmentName, segmentRoot_segmentName]
  rfl

end Name

end NamedContent
