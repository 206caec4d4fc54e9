import Mathlib
import NamedContent.Bytes.Lemmas
import NamedContent.Interest
import NamedContent.Proofs.Name.Order

/-!
# Segments in order

A segment number is read back from its component. Since a component without
leading zeros is longer the greater its number is, and within one length the
most significant byte decides, the segments under one root stand in the order
of their numbers. So whoever asks for what follows a segment is answered by
those with greater numbers.
-/

set_option autoImplicit false

namespace NamedContent

theorem ofBigEndian_cons (b : UInt8) (bytes : Bytes) :
    ofBigEndian (b :: bytes) = b.toNat * 256 ^ bytes.length + ofBigEndian bytes := by
  induction bytes using List.reverseRecOn with
  | nil => simp [ofBigEndian]
  | append_singleton rest d ih =>
    rw [← List.cons_append, ofBigEndian_append_singleton, ofBigEndian_append_singleton, ih,
      List.length_append, List.length_singleton, Nat.pow_succ]
    ring

theorem ofBigEndian_lt (bytes : Bytes) : ofBigEndian bytes < 256 ^ bytes.length := by
  induction bytes with
  | nil => simp [ofBigEndian]
  | cons b rest ih =>
    have digit : b.toNat < 256 := b.toNat_lt
    rw [ofBigEndian_cons, List.length_cons, Nat.pow_succ]
    calc b.toNat * 256 ^ rest.length + ofBigEndian rest
        < b.toNat * 256 ^ rest.length + 256 ^ rest.length := Nat.add_lt_add_left ih _
      _ = (b.toNat + 1) * 256 ^ rest.length := by ring
      _ ≤ 256 * 256 ^ rest.length := Nat.mul_le_mul_right _ digit
      _ = 256 ^ rest.length * 256 := Nat.mul_comm _ _

theorem ofBigEndian_dropWhile_zero (bytes : Bytes) :
    ofBigEndian (bytes.dropWhile (· == 0)) = ofBigEndian bytes := by
  induction bytes with
  | nil => rfl
  | cons b rest ih =>
    rw [List.dropWhile_cons]
    split
    · rename_i zero
      obtain rfl : b = 0 := by simpa using zero
      rw [ih, ofBigEndian_cons]
      simp
    · rfl

theorem compare_of_ofBigEndian_lt {x y : Bytes} (length : x.length = y.length)
    (lt : ofBigEndian x < ofBigEndian y) : compare x y = .lt := by
  induction x generalizing y with
  | nil =>
    obtain rfl : y = [] := List.length_eq_zero_iff.mp length.symm
    exact absurd lt (Nat.lt_irrefl _)
  | cons a x ih =>
    obtain ⟨b, y, rfl⟩ := List.exists_cons_of_length_eq_add_one length.symm
    have shorter : x.length = y.length := by simpa using length
    rw [List.compare_cons_cons]
    rw [ofBigEndian_cons, ofBigEndian_cons, shorter] at lt
    have below := ofBigEndian_lt x
    have below' := ofBigEndian_lt y
    rcases Std.lt_trichotomy a b with less | rfl | more
    · rw [Std.compare_eq_lt.mpr less]
      rfl
    · rw [Std.ReflOrd.compare_self]
      exact ih shorter (by omega)
    · -- a greater first digit outweighs all that follow
      have more : b.toNat + 1 ≤ a.toNat := UInt8.lt_iff_toNat_lt.mp more
      have outweighs := Nat.mul_le_mul_right (256 ^ y.length) more
      rw [Nat.add_mul] at outweighs
      omega

namespace Component

/-- The digits of a segment number without leading zeros. -/
def segmentDigits (number : UInt64) : Bytes := (bigEndian 8 number.toNat).dropWhile (· == 0)

theorem segmentDigits_length (number : UInt64) : (segmentDigits number).length ≤ 8 := by
  have shorter := (List.dropWhile_sublist (l := bigEndian 8 number.toNat) (· == 0)).length_le
  rwa [bigEndian_length] at shorter

theorem ofBigEndian_segmentDigits (number : UInt64) :
    ofBigEndian (segmentDigits number) = number.toNat := by
  rw [segmentDigits, ofBigEndian_dropWhile_zero, ofBigEndian_bigEndian]
  exact Nat.mod_eq_of_lt number.toNat_lt

theorem segmentDigits_head (number : UInt64) {b : UInt8} {rest : Bytes}
    (digits : segmentDigits number = b :: rest) : b ≠ 0 := by
  rintro rfl
  have leading := List.head?_dropWhile_not (· == (0 : UInt8)) (bigEndian 8 number.toNat)
  rw [segmentDigits] at digits
  simp [digits] at leading

theorem segmentNumber?_segment (number : UInt64) : (segment number).segmentNumber? = some number := by
  show (if segmentMarker = segmentMarker ∧ (segmentDigits number).length ≤ 8 then
    some (UInt64.ofNat (ofBigEndian (segmentDigits number))) else none) = some number
  rw [if_pos ⟨rfl, segmentDigits_length number⟩, ofBigEndian_segmentDigits, UInt64.ofNat_toNat]

theorem segmentDigits_length_le {a : UInt64} {digits : Bytes}
    (lt : a.toNat < ofBigEndian digits) : (segmentDigits a).length ≤ digits.length := by
  by_contra longer
  cases digits' : segmentDigits a with
  | nil => simp [digits'] at longer
  | cons d rest =>
    have first : 0 < d.toNat := by
      rw [Nat.pos_iff_ne_zero]
      exact fun zero => segmentDigits_head a digits' (UInt8.toNat_inj.mp zero)
    have value := ofBigEndian_segmentDigits a
    rw [digits', ofBigEndian_cons] at value
    have below := ofBigEndian_lt digits
    have fewer : digits.length ≤ rest.length := by
      rw [digits', List.length_cons] at longer
      omega
    have power := Nat.pow_le_pow_right (show 0 < 256 by omega) fewer
    have counts := Nat.mul_le_mul_right (256 ^ rest.length) first
    omega

theorem compare_segment_of_lt {a : UInt64} {digits : Bytes} (lt : a.toNat < ofBigEndian digits) :
    compare (segment a) ⟨segmentMarker :: digits⟩ = .lt := by
  show (compare (segmentDigits a).length.succ digits.length.succ).then
    (compare (segmentMarker :: segmentDigits a) (segmentMarker :: digits)) = .lt
  rcases Nat.lt_or_eq_of_le (segmentDigits_length_le lt) with shorter | same
  · rw [Std.compare_eq_lt.mpr (Nat.succ_lt_succ shorter)]
    rfl
  · rw [same, Std.ReflOrd.compare_self, List.compare_cons_cons, Std.ReflOrd.compare_self]
    exact compare_of_ofBigEndian_lt same ((ofBigEndian_segmentDigits a).trans_lt lt)

theorem compare_segment (a b : UInt64) : compare (segment a) (segment b) = compare a b := by
  have before {a b : UInt64} (less : a < b) : compare (segment a) (segment b) = .lt := by
    have value : a.toNat < ofBigEndian (segmentDigits b) := by
      rw [ofBigEndian_segmentDigits]
      exact UInt64.lt_iff_toNat_lt.mp less
    exact compare_segment_of_lt value
  rcases Std.lt_trichotomy a b with less | rfl | more
  · rw [before less, Std.compare_eq_lt.mpr less]
  · rw [Std.ReflOrd.compare_self, Std.ReflOrd.compare_self]
  · rw [Std.OrientedOrd.eq_swap, before more, Std.compare_eq_gt.mpr more]
    rfl

end Component

namespace Name

theorem compare_append (n : Name) (c d : Component) :
    compare (n.append c) (n.append d) = compare c d := by
  obtain ⟨cs⟩ := n
  show compare (cs ++ [c]) (cs ++ [d]) = compare c d
  induction cs with
  | nil => simp [List.compare_cons_cons]
  | cons first rest ih => simpa [List.compare_cons_cons] using ih

theorem isPrefixOf_append (n : Name) (c : Component) : n.isPrefixOf (n.append c) = true :=
  isPrefixOf_iff.mpr (List.prefix_append _ _)

@[simp] theorem last?_append (n : Name) (c : Component) : (n.append c).last? = some c := by
  simp [last?, append]

theorem segmentNumber?_append (n : Name) (number : UInt64) :
    (n.append (.segment number)).segmentNumber? = some number := by
  rw [segmentNumber?, last?_append]
  exact Component.segmentNumber?_segment number

theorem isSegment_append (n : Name) (number : UInt64) :
    (n.append (.segment number)).isSegment = true := by
  rw [isSegment, segmentNumber?_append]
  rfl

theorem segmentRoot_append (n : Name) (number : UInt64) :
    (n.append (.segment number)).segmentRoot = n := by
  rw [segmentRoot, if_pos (isSegment_append n number)]
  obtain ⟨cs⟩ := n
  simp [truncate, append, length]

theorem compare_segmentName (r : Name) (a b : UInt64) :
    compare (r.segmentName a) (r.segmentName b) = compare a b :=
  (compare_append r.segmentRoot _ _).trans (Component.compare_segment a b)

theorem segmentName_inj {r : Name} {a b : UInt64} (same : r.segmentName a = r.segmentName b) :
    a = b := by
  have equal : compare a b = .eq := by
    rw [← compare_segmentName r, same]
    exact Std.ReflOrd.compare_self
  exact Std.LawfulEqOrd.eq_of_compare equal

theorem segmentRoot_segmentName (r : Name) (number : UInt64) :
    (r.segmentName number).segmentRoot = r.segmentRoot :=
  segmentRoot_append r.segmentRoot number

end Name

namespace Interest

theorem accepts_ofName {n m : Name} : (ofName n).accepts m = n.isPrefixOf m := by
  simp [accepts, ofName]

theorem accepts_nextAfter_append (r : Name) (a b : UInt64) :
    (nextAfter (r.append (.segment a))).accepts (r.append (.segment b)) = true ↔ a < b := by
  simp only [accepts, nextAfter, Name.segmentRoot_append, Name.isPrefixOf_append, Bool.true_and,
    Name.compare_append, Component.compare_segment, beq_iff_eq]
  exact Std.compare_eq_gt

end Interest

end NamedContent
