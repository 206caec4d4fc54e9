import Mathlib
import NamedContent.Name

/-!
# The names below a name

The names that a name covers stand together in the order of names, beginning
with that name. So they can be listed by one scan.
-/

set_option autoImplicit false

namespace NamedContent

theorem compare_ne_lt_of_prefix {ns ms : List Component} (h : ns <+: ms) :
    compare ms ns ≠ .lt := by
  induction ns generalizing ms with
  | nil => cases ms <;> simp
  | cons c ns ih =>
    obtain ⟨rest, rfl⟩ := h
    have later := ih (List.prefix_append ns rest)
    simpa using later

theorem prefix_of_between {ns xs ms : List Component} (h : ns <+: ms)
    (least : compare xs ns ≠ .lt) (most : compare xs ms ≠ .gt) : ns <+: xs := by
  induction ns generalizing xs ms with
  | nil => exact List.nil_prefix
  | cons c ns ih =>
    obtain ⟨rest, rfl⟩ := h
    cases xs with
    | nil => exact absurd rfl least
    | cons x xs =>
      rw [List.compare_cons_cons] at least
      rw [List.cons_append, List.compare_cons_cons] at most
      cases hx : compare x c with
      | lt => simp [hx] at least
      | gt => simp [hx] at most
      | eq =>
        obtain rfl := Std.LawfulEqOrd.eq_of_compare hx
        rw [hx] at least most
        exact List.cons_prefix_cons.mpr ⟨rfl, ih (List.prefix_append ns rest) least most⟩

namespace Name

theorem isPrefixOf_iff {n m : Name} : n.isPrefixOf m = true ↔ n.components <+: m.components := by
  rw [isPrefixOf, List.isPrefixOf_iff_prefix]

theorem isPrefixOf_iff_truncate {n m : Name} :
    n.isPrefixOf m = true ↔ n.length ≤ m.length ∧ m.truncate n.length = n := by
  rw [isPrefixOf_iff]
  constructor
  · intro covers
    exact ⟨covers.length_le, congrArg Name.mk (List.prefix_iff_eq_take.mp covers).symm⟩
  · rintro ⟨-, same⟩
    have components := congrArg Name.components same
    exact components ▸ List.take_prefix n.length m.components

theorem compare_ne_lt_of_isPrefixOf {n m : Name} (h : n.isPrefixOf m = true) :
    compare m n ≠ .lt :=
  compare_ne_lt_of_prefix (isPrefixOf_iff.mp h)

theorem isPrefixOf_of_between {n x m : Name} (h : n.isPrefixOf m = true)
    (least : compare x n ≠ .lt) (most : compare x m ≠ .gt) : n.isPrefixOf x = true :=
  isPrefixOf_iff.mpr (prefix_of_between (isPrefixOf_iff.mp h) least most)

end Name

end NamedContent
