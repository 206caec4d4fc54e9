import Mathlib
import NamedContent.Table

/-!
# Looking up a table after a change

An entry is found exactly if it is listed. A put decides its own key and no
other, and takes a new place only for a key that was not there.
-/

set_option autoImplicit false

namespace NamedContent.Table

variable {κ ν : Type} [Ord κ]

theorem startingAt_ascending (t : Table κ ν) (k : κ) :
    (t.startingAt k).Pairwise fun x y => compare x.1 y.1 = .lt :=
  t.ascending.sublist (List.dropWhile_sublist _)

theorem mem_takeWhile_of_ascending {l : List (κ × ν)}
    (ascending : l.Pairwise fun x y => compare x.1 y.1 = .lt) {p : κ × ν → Bool} {x : κ × ν}
    (hx : x ∈ l) (h : ∀ y ∈ l, y = x ∨ compare y.1 x.1 = .lt → p y = true) :
    x ∈ l.takeWhile p := by
  induction l with
  | nil => simp at hx
  | cons e rest ih =>
    obtain ⟨least, ordered⟩ := List.pairwise_cons.mp ascending
    have first : p e = true := by
      rcases List.mem_cons.mp hx with rfl | hx
      · exact h x (by simp) (.inl rfl)
      · exact h e (by simp) (.inr (least x hx))
    rw [List.takeWhile_cons_of_pos first]
    rcases List.mem_cons.mp hx with rfl | hx
    · exact List.mem_cons_self
    · exact List.mem_cons_of_mem _ (ih ordered hx fun y hy => h y (List.mem_cons_of_mem _ hy))

variable [Std.TransOrd κ]

theorem ne_of_compare_lt {k k' : κ} (h : compare k k' = .lt) : k ≠ k' := by
  rintro rfl
  simp at h

theorem keys_nodup (t : Table κ ν) : (t.toList.map Prod.fst).Nodup :=
  List.pairwise_map.mpr (t.ascending.imp ne_of_compare_lt)

theorem toList_nodup (t : Table κ ν) : t.toList.Nodup := t.keys_nodup.of_map

theorem mem_startingAt {t : Table κ ν} {k : κ} {x : κ × ν} :
    x ∈ t.startingAt k ↔ x ∈ t.toList ∧ compare x.1 k ≠ .lt := by
  have ascending := t.ascending
  rw [startingAt]
  generalize t.toList = l at ascending ⊢
  induction l with
  | nil => simp
  | cons e rest ih =>
    obtain ⟨least, ordered⟩ := List.pairwise_cons.mp ascending
    rw [List.dropWhile_cons]
    split
    · rename_i before
      have before : compare e.1 k = .lt := by simpa using before
      refine (ih ordered).trans ?_
      rw [List.mem_cons]
      constructor
      · exact And.imp_left .inr
      · rintro ⟨rfl | hx, h⟩
        · exact absurd before h
        · exact ⟨hx, h⟩
    · rename_i after
      refine ⟨fun hx => ⟨hx, ?_⟩, And.left⟩
      rcases List.mem_cons.mp hx with rfl | hx
      · simpa using after
      · exact fun lt => after (by simpa using Std.TransCmp.lt_trans (least x hx) lt)

section Find

variable [DecidableEq κ]

theorem find?_eq_some {t : Table κ ν} {k : κ} {v : ν} :
    t.find? k = some v ↔ (k, v) ∈ t.toList := by
  rw [find?, Option.map_eq_some_iff]
  constructor
  · rintro ⟨⟨k', v'⟩, found, rfl⟩
    have same : k' = k := by simpa using List.find?_some found
    exact same ▸ List.mem_of_find?_eq_some found
  · intro h
    cases found : t.toList.find? fun e => e.1 = k with
    | none => simpa using List.find?_eq_none.mp found _ h
    | some e =>
      have same : e.1 = k := by simpa using List.find?_some found
      have listed := List.mem_of_find?_eq_some found
      exact ⟨e, rfl, by rw [List.inj_on_of_nodup_map t.keys_nodup listed h same]⟩

theorem find?_eq_none {t : Table κ ν} {k : κ} :
    t.find? k = none ↔ ∀ v, (k, v) ∉ t.toList := by
  rw [Option.eq_none_iff_forall_ne_some]
  simp only [ne_eq, find?_eq_some]

theorem contains_iff {t : Table κ ν} {k : κ} : t.contains k = true ↔ ∃ v, (k, v) ∈ t.toList := by
  simp only [contains, Option.isSome_iff_exists, find?_eq_some]

omit [Ord κ] [Std.TransOrd κ] in
theorem perm_cons_filter {l : List (κ × ν)} (distinct : (l.map Prod.fst).Nodup) {k : κ} {v : ν}
    (listed : (k, v) ∈ l) : l.Perm ((k, v) :: l.filter fun e => e.1 ≠ k) := by
  refine (List.perm_ext_iff_of_nodup distinct.of_map ?_).mpr fun x => ?_
  · exact List.nodup_cons.mpr ⟨by simp, distinct.of_map.filter _⟩
  · simp only [List.mem_cons, List.mem_filter, decide_eq_true_eq]
    constructor
    · intro hx
      by_cases same : x.1 = k
      · exact .inl (List.inj_on_of_nodup_map distinct hx listed same)
      · exact .inr ⟨hx, same⟩
    · rintro (rfl | ⟨hx, -⟩)
      · exact listed
      · exact hx

theorem toList_perm {t : Table κ ν} {k : κ} {v : ν} (h : t.find? k = some v) :
    t.toList.Perm ((k, v) :: t.toList.filter fun e => e.1 ≠ k) :=
  perm_cons_filter t.keys_nodup (find?_eq_some.mp h)

theorem find?_erase (t : Table κ ν) (k k' : κ) :
    (t.erase k).find? k' = if k' = k then none else t.find? k' := by
  ext w
  have listed : (k', w) ∈ (t.erase k).toList ↔ (k', w) ∈ t.toList ∧ k' ≠ k := by
    simp [erase, filter]
  rw [find?_eq_some, listed]
  split
  · simp [*]
  · simp [*, find?_eq_some]

omit [Std.TransOrd κ] in
theorem erase_toList (t : Table κ ν) (k : κ) :
    (t.erase k).toList = t.toList.filter fun e => e.1 ≠ k := rfl

theorem erase_eq_self {t : Table κ ν} {k : κ} (absent : t.find? k = none) :
    (t.erase k).toList = t.toList := by
  rw [erase_toList, List.filter_eq_self]
  intro e he
  have apart : e.1 ≠ k := fun same => find?_eq_none.mp absent e.2 (same ▸ he)
  simpa using apart

theorem values_perm {t : Table κ ν} {k : κ} {v : ν} (found : t.find? k = some v) :
    t.values.Perm (v :: (t.erase k).values) := (toList_perm found).map Prod.snd

end Find

variable [Std.LawfulEqOrd κ]

theorem mem_place_iff {k : κ} {v : ν} {l : List (κ × ν)}
    (ascending : l.Pairwise fun x y => compare x.1 y.1 = .lt) {x : κ × ν} :
    x ∈ place k v l ↔ x = (k, v) ∨ x ∈ l ∧ x.1 ≠ k := by
  have below {y : κ × ν} (lt : compare k y.1 = .lt) : y.1 ≠ k := (ne_of_compare_lt lt).symm
  induction l with
  | nil => simp [place]
  | cons e rest ih =>
    obtain ⟨least, ordered⟩ := List.pairwise_cons.mp ascending
    unfold place
    split
    · rename_i lt
      have all : ∀ y ∈ e :: rest, y.1 ≠ k := by
        intro y hy
        rcases List.mem_cons.mp hy with rfl | hy
        · exact below lt
        · exact below (Std.TransCmp.lt_trans lt (least y hy))
      rw [List.mem_cons]
      exact or_congr_right ⟨fun h => ⟨h, all x h⟩, And.left⟩
    · rename_i eq
      have same := Std.LawfulEqOrd.eq_of_compare eq
      rw [List.mem_cons, List.mem_cons]
      refine or_congr_right ⟨fun h => ⟨.inr h, ?_⟩, ?_⟩
      · exact below (Std.TransCmp.lt_of_eq_of_lt eq (least x h))
      · rintro ⟨rfl | h, apart⟩
        · exact absurd same.symm apart
        · exact h
    · rename_i gt
      have apart : e.1 ≠ k := ne_of_compare_lt (Std.OrientedCmp.lt_of_gt gt)
      simp only [List.mem_cons]
      constructor
      · rintro (rfl | h)
        · exact .inr ⟨.inl rfl, apart⟩
        · exact ((ih ordered).mp h).imp_right (And.imp_left .inr)
      · rintro (rfl | ⟨rfl | h, hk⟩)
        · exact .inr ((ih ordered).mpr (.inl rfl))
        · exact .inl rfl
        · exact .inr ((ih ordered).mpr (.inr ⟨h, hk⟩))

theorem mem_insert {t : Table κ ν} {k : κ} {v : ν} {x : κ × ν} :
    x ∈ (t.insert k v).toList ↔ x = (k, v) ∨ x ∈ t.toList ∧ x.1 ≠ k :=
  mem_place_iff t.ascending

variable [DecidableEq κ]

theorem insert_perm (t : Table κ ν) (k : κ) (v : ν) :
    (t.insert k v).toList.Perm ((k, v) :: t.toList.filter fun e => e.1 ≠ k) := by
  refine (List.perm_ext_iff_of_nodup (toList_nodup _) ?_).mpr fun x => ?_
  · exact List.nodup_cons.mpr ⟨by simp, t.toList_nodup.filter _⟩
  · simp [mem_insert]

theorem find?_insert (t : Table κ ν) (k k' : κ) (v : ν) :
    (t.insert k v).find? k' = if k' = k then some v else t.find? k' := by
  ext w
  rw [find?_eq_some, mem_insert]
  split
  · simp [*, eq_comm]
  · simp [*, find?_eq_some]

theorem contains_insert (t : Table κ ν) (k k' : κ) (v : ν) :
    (t.insert k v).contains k' = (decide (k' = k) || t.contains k') := by
  rw [contains, contains, find?_insert]
  split <;> simp [*]

theorem values_insert_perm (t : Table κ ν) (k : κ) (v : ν) :
    (t.insert k v).values.Perm (v :: (t.erase k).values) := (t.insert_perm k v).map Prod.snd

omit [Std.TransOrd κ] [Std.LawfulEqOrd κ] [DecidableEq κ] in
theorem eq_of_toList {t t' : Table κ ν} (same : t.toList = t'.toList) : t = t' := by
  cases t
  cases t'
  cases same
  rfl

theorem insert_erase {t : Table κ ν} {k : κ} {v : ν} (found : t.find? k = some v) :
    (t.erase k).insert k v = t := by
  have perm : ((t.erase k).insert k v).toList.Perm t.toList := by
    refine ((t.erase k).insert_perm k v).trans (.trans ?_ (toList_perm found).symm)
    rw [← erase_toList, erase_eq_self ((t.find?_erase k k).trans (if_pos rfl)), erase_toList]
  -- two tables with the same entries list them in the same order
  refine eq_of_toList (perm.eq_of_pairwise ?_ ((t.erase k).insert k v).ascending t.ascending)
  intro x y _ _ less more
  exact absurd (Std.TransCmp.lt_trans less more) (by simp)

theorem size_insert (t : Table κ ν) (k : κ) (v : ν) :
    (t.insert k v).size = if t.contains k then t.size else t.size + 1 := by
  rw [size, (t.insert_perm k v).length_eq, List.length_cons]
  cases h : t.find? k with
  | none =>
    rw [← erase_toList, erase_eq_self h, contains, h]
    rfl
  | some w =>
    rw [contains, h, size, (toList_perm h).length_eq, List.length_cons]
    rfl

end NamedContent.Table
