import Mathlib
import NamedContent.Numbering
import NamedContent.Proofs.Batch
import NamedContent.Proofs.Text

/-!
# Policies and their texts

A policy that is valid reads back from its text, and one that is not does not:
the reader validates what it has read, so that no text at all yields an invalid
policy.
-/

set_option autoImplicit false

namespace NamedContent.Numbering

def call (mode : List Char) (n : UInt64) : List Char :=
  mode ++ '(' :: (Nat.toDigits 10 n.toNat ++ [')'])

theorem splitArgument_bare {mode : List Char} (bare : '(' ∉ mode) :
    splitArgument mode = .ok (mode, none) := by
  have all : ∀ c ∈ mode, (c != '(') = true := fun c mem =>
    bne_iff_ne.mpr fun same => bare (same ▸ mem)
  rw [splitArgument, List.span_eq_takeWhile_dropWhile, List.dropWhile_eq_nil_iff.mpr all]

theorem splitArgument_call {mode : List Char} (bare : '(' ∉ mode) (trimmed : Text.trim mode = mode)
    (n : UInt64) : splitArgument (call mode n) = .ok (mode, some n) := by
  have all : ∀ c ∈ mode, (c != '(') = true := fun c mem =>
    bne_iff_ne.mpr fun same => bare (same ▸ mem)
  have before : (call mode n).takeWhile (· != '(') = mode := by
    rw [call, List.takeWhile_append_of_pos all]
    simp
  have after : (call mode n).dropWhile (· != '(') = '(' :: (Nat.toDigits 10 n.toNat ++ [')']) := by
    rw [call, List.dropWhile_append_of_pos all]
    simp
  rw [splitArgument, List.span_eq_takeWhile_dropWhile, before, after]
  simp only [List.getLast?_concat, if_pos, List.dropLast_concat, Text.trim_toDigits,
    Text.readDecimal_toDigits n.toNat_lt_size, UInt64.ofNat_toNat, trimmed]

theorem trim_call {mode : List Char} (first : mode.head?.any Text.isBlank = false) (n : UInt64) :
    Text.trim (call mode n) = call mode n := by
  apply Text.trim_eq_self
  · cases mode with
    | nil => exact (by decide : Text.isBlank '(' = false)
    | cons c rest => exact first
  · have ends : call mode n = (mode ++ '(' :: Nat.toDigits 10 n.toNat) ++ [')'] := by simp [call]
    rw [ends, List.getLast?_concat]
    decide

theorem read_of_split {input : String} {cs mode : List Char} {argument : Option UInt64}
    {p : Numbering} (trimmed : Text.trim input.toList = cs)
    (split : splitArgument cs = .ok (mode, argument))
    (known : ofMode? (String.ofList (mode.map Char.toLower)) argument = some p) :
    read input = p.validate.map fun _ => p := by
  rw [read, trimmed, split]
  simp only [bind, Except.bind, known]
  cases p.validate <;> rfl

theorem read_call (opened mode : String) {n : UInt64} {p : Numbering}
    (shape : opened.toList = mode.toList ++ ['(']) (bare : '(' ∉ mode.toList)
    (trimmed : Text.trim mode.toList = mode.toList)
    (first : mode.toList.head?.any Text.isBlank = false)
    (known : ofMode? (String.ofList (mode.toList.map Char.toLower)) (some n) = some p) :
    read (opened ++ n.toNat.repr ++ ")") = p.validate.map fun _ => p := by
  have spelled : (opened ++ n.toNat.repr ++ ")").toList = call mode.toList n := by
    rw [String.toList_append, String.toList_append, Nat.toList_repr, shape, call,
      List.append_assoc, List.append_assoc]
    rfl
  exact read_of_split (spelled ▸ trim_call first n) (splitArgument_call bare trimmed n) known

theorem read_text (p : Numbering) : read p.text = p.validate.map fun _ => p := by
  cases p with
  | byteCount =>
    have trimmed : Text.trim "byte-count".toList = "byte-count".toList := by decide
    exact read_of_split trimmed (splitArgument_bare (by decide)) (by decide)
  | fixedIncrement n =>
    exact read_call "fixed-increment(" "fixed-increment"
      (by decide) (by decide) (by decide) (by decide) rfl
  | scaledByteCount n =>
    exact read_call "scaled-byte-count(" "scaled-byte-count"
      (by decide) (by decide) (by decide) (by decide) rfl

theorem validate_eq_ok {p : Numbering} :
    p.validate = .ok () ↔ p ≠ .fixedIncrement 0 ∧ p ≠ .scaledByteCount 0 := by
  rw [validate.eq_def]
  split <;> simp_all

theorem valid_of_read {input : String} {p : Numbering} (done : read input = .ok p) :
    p.validate = .ok () := by
  rw [read] at done
  obtain ⟨⟨mode, argument⟩, -, done⟩ := bind_eq_ok.mp done
  dsimp only at done
  split at done
  · contradiction
  · obtain ⟨⟨⟩, valid, same⟩ := bind_eq_ok.mp done
    exact Except.ok.inj same ▸ valid

theorem read_text_iff (p : Numbering) : read p.text = .ok p ↔ p.validate = .ok () := by
  rw [read_text]
  cases p.validate <;> simp [Except.map]

end NamedContent.Numbering
