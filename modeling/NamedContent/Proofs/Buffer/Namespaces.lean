import Mathlib
import NamedContent.Buffer.Insertion
import NamedContent.Proofs.Name.Order
import NamedContent.Proofs.Table

/-!
# The namespaces of a buffer

A namespace is in the table as long as somebody holds it. A name is looked up by
its beginnings, and so it is admitted if one of the namespaces held covers it, or
if none is held.
-/

set_option autoImplicit false

namespace NamedContent.Buffer

variable {b : Buffer}

def holders (b : Buffer) (name : Name) : Nat := (b.namespaces.find? name).getD 0

theorem holders_addNamespace (b : Buffer) (name other : Name) :
    (b.addNamespace name).holders other = b.holders other + if other = name then 1 else 0 := by
  rw [holders, addNamespace, Table.find?_insert]
  split
  · rename_i same
    rw [same]
    rfl
  · rfl

theorem holders_removeNamespace (b : Buffer) (name other : Name) :
    (b.removeNamespace name).1.holders other = b.holders other - if other = name then 1 else 0 := by
  rw [removeNamespace]
  cases found : b.namespaces.find? name with
  | none =>
    show b.holders other = _
    split
    · rename_i same
      rw [same, holders, found]
      rfl
    · rfl
  | some count =>
    show (Option.getD (Table.find? (if count - 1 = 0 then _ else _) other) 0) = _
    rw [holders]
    split
    · rename_i last
      rw [Table.find?_erase]
      split
      · rename_i same
        rw [same, found]
        exact last.symm
      · rfl
    · rw [Table.find?_insert]
      split
      · rename_i same
        rw [same, found]
        rfl
      · rfl

theorem removeNamespace_held (b : Buffer) (name : Name) :
    (b.removeNamespace name).2 = b.namespaces.contains name := by
  rw [removeNamespace, Table.contains]
  cases b.namespaces.find? name <;> rfl

theorem admits_of_holders {root : Name} (held : 0 < b.holders root) (c : Component) :
    b.admits (root.append c) = true := by
  have there : b.namespaces.contains root = true := by
    rw [Table.contains, Option.isSome_iff_ne_none]
    intro none
    rw [holders, none] at held
    exact Nat.lt_irrefl _ held
  have within : (root.append c).truncate root.length = root := by
    simp [Name.truncate, Name.append, Name.length]
  rw [admits, Bool.or_eq_true, List.any_eq_true]
  refine .inr ⟨root.length, ?_, by rwa [within]⟩
  rw [List.mem_range]
  simp [Name.append, Name.length]

theorem sum_values (b : Buffer) :
    b.namespaces.values.sum = (b.namespaces.keys.map b.holders).sum := by
  rw [Table.values, Table.keys, List.map_map]
  congr 1
  apply List.map_congr_left
  rintro ⟨name, count⟩ listed
  rw [Function.comp_apply, holders, Table.find?_eq_some.mpr listed]
  rfl

theorem exists_truncate_iff (b : Buffer) (name : Name) :
    (∃ depth ≤ name.length, b.namespaces.contains (name.truncate depth) = true) ↔
      ∃ root, b.namespaces.contains root = true ∧ root.isPrefixOf name = true := by
  constructor
  · rintro ⟨depth, -, there⟩
    exact ⟨_, there, Name.isPrefixOf_iff.mpr (List.take_prefix depth name.components)⟩
  · rintro ⟨root, there, covers⟩
    obtain ⟨within, same⟩ := Name.isPrefixOf_iff_truncate.mp covers
    exact ⟨root.length, within, same.symm ▸ there⟩

/-- Every registered namespace has somebody who holds it. -/
def Counted (b : Buffer) : Prop := ∀ name count, b.namespaces.find? name = some count → 0 < count

theorem ofConfig_counted (config : Config) : (ofConfig config).Counted := fun _ _ found => by
  cases found

namespace Counted

protected theorem addNamespace (h : b.Counted) (name : Name) : (b.addNamespace name).Counted := by
  intro other count found
  rw [Buffer.addNamespace, Table.find?_insert] at found
  split at found
  · obtain rfl := Option.some.inj found
    exact Nat.succ_pos _
  · exact h other count found

protected theorem removeNamespace (h : b.Counted) (name : Name) :
    (b.removeNamespace name).1.Counted := by
  rw [Buffer.removeNamespace]
  cases registered : b.namespaces.find? name with
  | none => exact h
  | some holders =>
    intro other count found
    dsimp only at found
    split at found
    · rw [Table.find?_erase] at found
      split at found
      · contradiction
      · exact h other count found
    · rename_i more
      rw [Table.find?_insert] at found
      split at found
      · obtain rfl := Option.some.inj found
        exact Nat.pos_of_ne_zero more
      · exact h other count found

theorem contains_iff (h : b.Counted) (name : Name) :
    b.namespaces.contains name = true ↔ 0 < b.holders name := by
  rw [Table.contains, holders]
  cases found : b.namespaces.find? name with
  | none => simp
  | some count => simpa using h name count found

theorem mem_keys (h : b.Counted) (name : Name) :
    name ∈ b.namespaces.keys ↔ 0 < b.holders name := by
  rw [← h.contains_iff, Table.contains_iff, Table.keys, List.mem_map]
  simp

theorem admits_eq_false (h : b.Counted) (name : Name) :
    b.admits name = false ↔ (∃ root, 0 < b.holders root) ∧
      ∀ root, 0 < b.holders root → root.isPrefixOf name = false := by
  have covered : ((List.range (name.length + 1)).any fun depth =>
      b.namespaces.contains (name.truncate depth)) = false ↔
      ∀ root, 0 < b.holders root → root.isPrefixOf name = false := by
    have some_covers := b.exists_truncate_iff name
    simp only [h.contains_iff] at some_covers
    rw [← Bool.not_eq_true, List.any_eq_true]
    simp only [List.mem_range, Nat.lt_succ_iff, h.contains_iff, some_covers, not_exists, not_and,
      Bool.not_eq_true]
  have listed : b.namespaces.size = 0 ↔ ¬∃ root, 0 < b.holders root := by
    have keys : b.namespaces.size = b.namespaces.keys.length := (List.length_map _).symm
    rw [keys, List.length_eq_zero_iff, List.eq_nil_iff_forall_not_mem, not_exists]
    simp only [h.mem_keys]
  rw [admits, Bool.or_eq_false_iff, decide_eq_false_iff_not, listed, not_not, covered]

end Counted

end NamedContent.Buffer
