import Mathlib
import NamedContent.Text.Blank
import NamedContent.Text.Decimal

/-!
# Numerals and the blanks around them

A numeral reads as its value if that has sixty-four bits, and trimming leaves a
text alone that neither begins nor ends with a blank. So a printed number reads
back.
-/

set_option autoImplicit false

namespace NamedContent.Text

theorem le_ofDigitChars (cs : List Char) (n : Nat) : n ≤ Nat.ofDigitChars 10 cs n := by
  induction cs generalizing n with
  | nil => exact Nat.ofDigitChars_nil.ge
  | cons c cs ih =>
    rw [Nat.ofDigitChars_cons]
    have further := ih (10 * n + (c.toNat - '0'.toNat))
    omega

theorem readDigits_eq_ok {cs : List Char} {n m : Nat} (small : n < UInt64.size) :
    readDigits n cs = .ok m ↔
      (∀ c ∈ cs, c.isDigit = true) ∧ Nat.ofDigitChars 10 cs n = m ∧ m < UInt64.size := by
  induction cs generalizing n with
  | nil =>
    rw [readDigits, Except.ok.injEq, Nat.ofDigitChars_nil]
    constructor
    · rintro rfl
      exact ⟨nofun, rfl, small⟩
    · exact fun h => h.2.1
  | cons c cs ih =>
    have grows := le_ofDigitChars cs (10 * n + (c.toNat - '0'.toNat))
    rw [readDigits, List.forall_mem_cons, Nat.ofDigitChars_cons]
    split
    · rename_i digit
      dsimp only
      split
      · rename_i fits
        rw [ih fits, and_iff_right digit]
        rfl
      · rename_i large
        refine ⟨nofun, ?_⟩
        rintro ⟨-, rfl, fits⟩
        exact absurd (grows.trans_lt fits) large
    · rename_i other
      exact ⟨nofun, fun h => absurd h.1.1 other⟩

theorem readDecimal_toDigits {n : Nat} (small : n < UInt64.size) :
    readDecimal (Nat.toDigits 10 n) = .ok n := by
  have digits : ∀ c ∈ Nat.toDigits 10 n, c.isDigit = true := fun c =>
    Nat.isDigit_of_mem_toDigits (by decide) (by decide)
  have read : readDigits 0 (Nat.toDigits 10 n) = .ok n :=
    (readDigits_eq_ok (by decide)).mpr ⟨digits, Nat.ofDigitChars_ten_toDigits, small⟩
  have unsigned : '+' ∉ Nat.toDigits 10 n := fun mem => absurd (digits _ mem) (by decide)
  rw [readDecimal.eq_def]
  split
  · rename_i empty
    exact absurd empty Nat.toDigits_ne_nil
  · rename_i sign
    simp [sign] at unsigned
  · rename_i sign
    simp [sign] at unsigned
  · exact read

theorem trim_eq_self {cs : List Char} (first : cs.head?.any isBlank = false)
    (last : cs.getLast?.any isBlank = false) : trim cs = cs := by
  have keeps {l : List Char} (bare : l.head?.any isBlank = false) : l.dropWhile isBlank = l := by
    cases l with
    | nil => rfl
    | cons c rest => exact List.dropWhile_cons_of_neg (Bool.eq_false_iff.mp bare)
  rw [trim, keeps first, keeps (by rwa [List.head?_reverse]), List.reverse_reverse]

theorem isBlank_of_isDigit {c : Char} (digit : c.isDigit = true) : isBlank c = false := by
  have apart : ∀ n ∈ blanks, ¬(48 ≤ n ∧ n ≤ 57) := by decide
  obtain ⟨low, high⟩ : 48 ≤ c.val ∧ c.val ≤ 57 := by simpa [Char.isDigit] using digit
  rw [isBlank, Bool.eq_false_iff, Ne, List.contains_iff_mem]
  exact fun mem => apart _ mem ⟨UInt32.le_iff_toNat_le.mp low, UInt32.le_iff_toNat_le.mp high⟩

theorem trim_toDigits (n : Nat) : trim (Nat.toDigits 10 n) = Nat.toDigits 10 n := by
  have bare {edge : Option Char} (inside : ∀ c ∈ edge, c ∈ Nat.toDigits 10 n) :
      edge.any isBlank = false := by
    cases edge with
    | none => rfl
    | some c =>
      exact isBlank_of_isDigit (Nat.isDigit_of_mem_toDigits (by decide) (by decide) (inside c rfl))
  exact trim_eq_self (bare fun c => List.mem_of_mem_head?) (bare fun c => List.mem_of_mem_getLast?)

end NamedContent.Text
