import Mathlib
import NamedContent.Proofs.Matcher.Registrations

/-!
# The tree of patterns against a plain list

Registrations can be kept as a list of pairs in the order in which they were
made, and every question about them can be answered by a scan. After any history
the tree of patterns gives the same answers: it matches a name as the sorted scan
does, it finds what lies under a pattern, and it is empty exactly with the list.
-/

set_option autoImplicit false

namespace NamedContent

section Sorting

variable {α : Type} {key : α → Nat} {l : List α}

theorem filter_le_eq (ordered : l.Pairwise fun x y => key x ≤ key y) (n : Nat) :
    l.filter (fun x => key x ≤ n) =
      l.filter (fun x => key x < n) ++ l.filter fun x => key x = n := by
  induction l with
  | nil => rfl
  | cons x rest ih =>
    obtain ⟨first, ordered⟩ := List.pairwise_cons.mp ordered
    have later := ih ordered
    rcases Nat.lt_or_ge (key x) n with less | reached
    · simp [less, less.le, less.ne, later]
    · have none : rest.filter (fun x => key x < n) = [] := by
        rw [List.filter_eq_nil_iff]
        intro y mem
        simpa using reached.trans (first y mem)
      rw [none, List.nil_append] at later
      have same : key x ≤ n ↔ key x = n := ⟨fun le => le.antisymm reached, fun eq => eq.le⟩
      simp [List.filter_cons, Nat.not_lt.mpr reached, none, same, later]

theorem flatMap_filter_of_ordered (ordered : l.Pairwise fun x y => key x ≤ key y) {n : Nat}
    (bounded : ∀ x ∈ l, key x < n) :
    ((List.range n).flatMap fun k => l.filter fun x => key x = k) = l := by
  have upTo (k : Nat) : ((List.range k).flatMap fun k => l.filter fun x => key x = k) =
      l.filter fun x => key x < k := by
    induction k with
    | zero => simp
    | succ k ih =>
      rw [List.range_succ, List.flatMap_append, List.flatMap_singleton, ih]
      simp only [Nat.lt_succ_iff]
      exact (filter_le_eq ordered k).symm
  rw [upTo, List.filter_eq_self]
  simpa using bounded

theorem pairwise_mergeSort_key (key : α → Nat) (l : List α) :
    (l.mergeSort fun x y => key x ≤ key y).Pairwise fun x y => key x ≤ key y := by
  have ordered := @List.pairwise_mergeSort α (fun x y => decide (key x ≤ key y))
    (fun x y z => by simpa using Nat.le_trans) (fun x y => by simpa using Nat.le_total _ _) l
  simpa using ordered

theorem filter_mergeSort_key (key : α → Nat) (l : List α) (n : Nat) :
    (l.mergeSort fun x y => key x ≤ key y).filter (fun x => key x = n) =
      l.filter fun x => key x = n := by
  have alike : (l.filter fun x => key x = n).Pairwise fun x y => decide (key x ≤ key y) = true := by
    rw [List.pairwise_filter]
    refine List.pairwise_of_forall fun x y hx hy => ?_
    simp only [decide_eq_true_eq] at hx hy ⊢
    omega
  have stable := @List.sublist_mergeSort α (fun x y => decide (key x ≤ key y)) _
    (fun x y z => by simpa using Nat.le_trans) (fun x y => by simpa using Nat.le_total _ _)
    _ alike List.filter_sublist
  have within := stable.filter fun x => decide (key x = n)
  rw [List.filter_filter] at within
  simp only [Bool.and_self] at within
  exact (within.eq_of_length ((List.mergeSort_perm l _).filter _).length_eq.symm).symm

theorem mergeSort_key_eq (key : α → Nat) (l : List α) {n : Nat} (bounded : ∀ x ∈ l, key x < n) :
    (l.mergeSort fun x y => key x ≤ key y) =
      (List.range n).flatMap fun k => l.filter fun x => key x = k := by
  have sorted := flatMap_filter_of_ordered (pairwise_mergeSort_key key l)
    fun x mem => bounded x (List.mem_mergeSort.mp mem)
  simpa only [filter_mergeSort_key] using sorted.symm

end Sorting

namespace Branches

variable {α : Type}

theorem listeners_eq (t : Branches α) : t.listeners = t.registrations.map (·.2) := by
  induction t with
  | nil => rfl
  | node label here below next ihb ihn =>
    simp [listeners, registrations, ihb, ihn, Function.comp_def]

theorem along_sublist (t : Branches α) (path : List Component) :
    (t.along path).Sublist t.listeners := by
  induction t generalizing path with
  | nil => exact List.nil_sublist _
  | node label here below next ihb ihn =>
    cases path with
    | nil => exact List.nil_sublist _
    | cons c path =>
      rw [along, listeners]
      split
      · exact ((List.Sublist.refl here).append (ihb path)).trans (List.sublist_append_left _ _)
      · exact (ihn _).trans (List.sublist_append_right _ _)

theorem filter_registrations_eq_nil {t : Branches α} {c : Component} (sorted : t.Sorted)
    (above : t.StartsAbove c) (path : List Component) :
    t.registrations.filter (fun r => (c :: path).isPrefixOf r.1) = [] := by
  rw [List.filter_eq_nil_iff]
  rintro ⟨way, l⟩ listed covers
  obtain ⟨d, rest, rfl, held⟩ := (mem_registrations sorted).mp listed
  obtain ⟨rfl, -⟩ : c = d ∧ _ := by simpa [List.isPrefixOf] using covers
  rw [posted_of_startsAbove rest sorted above] at held
  contradiction

theorem under_eq {t : Branches α} (sorted : t.Sorted) (path : List Component) :
    t.under path = (t.registrations.filter fun r => path.isPrefixOf r.1).map (·.2) := by
  induction t generalizing path with
  | nil => simp [under, registrations]
  | node label here below next ihb ihn =>
    obtain ⟨hb, hn, above⟩ := sorted
    cases path with
    | nil => simp [under, listeners_eq]
    | cons c path =>
      rw [under]
      by_cases same : c = label
      · subst same
        rw [if_pos rfl, registrations, List.filter_append, List.filter_append,
          filter_registrations_eq_nil hn above, ihb hb]
        cases path with
        | nil => simp [List.filter_map, List.isPrefixOf, Function.comp_def]
        | cons d rest => simp [List.filter_map, List.isPrefixOf, Function.comp_def]
      · have apart : (c == label) = false := by simpa using same
        rw [if_neg same, ihn hn]
        simp [registrations, List.filter_map, List.isPrefixOf, Function.comp_def, apart]

end Branches

namespace Matcher

variable {α : Type}

theorem listeners_eq (m : Matcher α) : m.listeners = m.registrations.map (·.2) := by
  simp [listeners, registrations, Branches.listeners_eq, Function.comp_def]

theorem matching_sublist (m : Matcher α) (name : Name) :
    (m.matching name).Sublist m.listeners :=
  (List.Sublist.refl m.here).append (m.below.along_sublist name.components)

inductive Change (α : Type) where
  | register (pattern : Name) (listener : α)
  | unregister (pattern : Name) (listener : α)
  | clear

theorem filter_covers_length (pairs : List (Name × α)) {name : Name} {depth : Nat}
    (within : depth ≤ name.length) :
    (pairs.filter fun r => r.1.isPrefixOf name).filter (fun r => r.1.length = depth) =
      pairs.filter fun r => r.1 = name.truncate depth := by
  rw [List.filter_filter]
  apply List.filter_congr
  rintro ⟨pattern, l⟩ -
  rw [← Bool.decide_coe (pattern.isPrefixOf name), ← Bool.decide_and, decide_eq_decide,
    Name.isPrefixOf_iff_truncate]
  constructor
  · rintro ⟨rfl, -, same⟩
    exact same.symm
  · rintro rfl
    have length : (name.truncate depth).length = depth := by
      simpa [Name.truncate, Name.length] using within
    simp [length, within]

/-- The tree holds the pairs of the list, those of one pattern in their order. -/
structure Lists (m : Matcher α) (pairs : List (Name × α)) : Prop where
  sorted : m.Sorted
  tidy : m.Tidy
  once : pairs.Nodup
  posted : ∀ pattern, m.posted pattern = (pairs.filter fun r => r.1 = pattern).map (·.2)

variable {m : Matcher α} {pairs : List (Name × α)} {pattern : Name} {listener : α}

theorem empty_lists : (empty : Matcher α).Lists [] :=
  ⟨empty_sorted, empty_tidy, List.nodup_nil, posted_empty⟩

theorem Lists.mem_posted (h : m.Lists pairs) :
    listener ∈ m.posted pattern ↔ (pattern, listener) ∈ pairs := by
  rw [h.posted]
  simp

theorem Lists.registrations_perm (h : m.Lists pairs) : m.registrations.Perm pairs := by
  rw [List.perm_ext_iff_of_nodup (registrations_nodup h.sorted h.tidy) h.once]
  rintro ⟨pattern, listener⟩
  rw [mem_registrations h.sorted, h.mem_posted]

theorem Lists.matching_eq (h : m.Lists pairs) (name : Name) : m.matching name =
    ((pairs.filter fun r => r.1.isPrefixOf name).mergeSort
      fun r r' => r.1.length ≤ r'.1.length).map (·.2) := by
  have bounded : ∀ r ∈ pairs.filter fun r => r.1.isPrefixOf name,
      r.1.length < name.length + 1 := by
    intro r mem
    have covers := (List.mem_filter.mp mem).2
    exact Nat.lt_succ_of_le (Name.isPrefixOf_iff_truncate.mp covers).1
  rw [mergeSort_key_eq (fun r : Name × α => r.1.length) _ bounded, Matcher.matching_eq,
    List.map_flatMap]
  apply List.flatMap_congr
  intro depth mem
  rw [filter_covers_length pairs (Nat.le_of_lt_succ (List.mem_range.mp mem)), h.posted]

theorem under_eq (sorted : m.Sorted) (pattern : Name) :
    m.under pattern = (m.registrations.filter fun r => pattern.isPrefixOf r.1).map (·.2) := by
  obtain ⟨path⟩ := pattern
  cases path with
  | nil => simp [under, listeners_eq, Name.isPrefixOf]
  | cons c path =>
    have inside : m.under ⟨c :: path⟩ = m.below.under (c :: path) := rfl
    rw [inside, Branches.under_eq sorted, registrations]
    simp [List.filter_map, Name.isPrefixOf, List.isPrefixOf, Function.comp_def]

theorem Lists.isEmpty_iff (h : m.Lists pairs) : m.isEmpty = true ↔ pairs = [] := by
  constructor
  · intro bare
    obtain ⟨nobody, cut⟩ : m.here = [] ∧ m.below.isNil = true := by simpa [isEmpty] using bare
    have below : m.below = .nil := by
      cases found : m.below with
      | nil => rfl
      | node => simp [found, Branches.isNil] at cut
    have none : m.registrations = [] := by
      rw [registrations, nobody, below]
      rfl
    exact List.perm_nil.mp (none ▸ h.registrations_perm.symm)
  · rintro rfl
    rw [eq_empty_of_registrations h.tidy (List.perm_nil.mp h.registrations_perm)]
    rfl

variable [DecidableEq α]

def changed (m : Matcher α) : Change α → Matcher α
  | .register pattern listener => m.register pattern listener
  | .unregister pattern listener => (m.unregister pattern listener).1
  | .clear => empty

def after (history : List (Change α)) : Matcher α := history.foldl changed empty

/-- A plain list of pairs after the change. A pair that is there keeps its place. -/
def Change.listed (pairs : List (Name × α)) : Change α → List (Name × α)
  | .register pattern listener =>
    if (pattern, listener) ∈ pairs then pairs else pairs ++ [(pattern, listener)]
  | .unregister pattern listener => pairs.filter fun r => r ≠ (pattern, listener)
  | .clear => []

def listing (history : List (Change α)) : List (Name × α) := history.foldl Change.listed []

theorem Lists.register (h : m.Lists pairs) (pattern : Name) (listener : α) :
    (m.register pattern listener).Lists ((Change.register pattern listener).listed pairs) := by
  have known : listener ∈ m.posted pattern ↔ (pattern, listener) ∈ pairs := h.mem_posted
  refine ⟨register_sorted _ _ h.sorted, register_tidy _ _ h.tidy, ?_, fun pattern' => ?_⟩
  · rw [Change.listed]
    split
    · exact h.once
    · rename_i new
      exact h.once.append (List.nodup_singleton _) (by simpa using new)
  · rw [posted_register h.sorted, Change.listed]
    by_cases old : (pattern, listener) ∈ pairs
    · rw [if_pos (known.mpr old), if_pos old, h.posted, h.posted]
      split
      · rename_i same
        rw [same]
      · rfl
    · rw [if_neg (mt known.mp old), if_neg old, h.posted, h.posted]
      by_cases same : pattern' = pattern
      · simp [same]
      · simp [same, Ne.symm same]

theorem Lists.unregister (h : m.Lists pairs) (pattern : Name) (listener : α) :
    (m.unregister pattern listener).1.Lists
      ((Change.unregister pattern listener).listed pairs) := by
  refine ⟨unregister_sorted _ _ h.sorted, unregister_tidy _ _ h.tidy, h.once.filter _,
    fun pattern' => ?_⟩
  rw [posted_unregister h.sorted, Change.listed, h.posted, h.posted]
  by_cases same : pattern' = pattern
  · subst same
    rw [if_pos rfl, List.filter_map, List.filter_filter, List.filter_filter]
    congr 1
    apply List.filter_congr
    rintro ⟨p, l⟩ -
    by_cases here : p = pattern'
    · simp [here]
    · simp [here]
  · rw [if_neg same, List.filter_filter]
    congr 1
    apply List.filter_congr
    rintro ⟨p, l⟩ -
    by_cases here : p = pattern'
    · simp [here, same]
    · simp [here]

theorem Lists.changed (h : m.Lists pairs) (c : Change α) :
    (m.changed c).Lists (c.listed pairs) := by
  cases c with
  | register pattern listener => exact h.register pattern listener
  | unregister pattern listener => exact h.unregister pattern listener
  | clear => exact empty_lists

theorem after_lists (history : List (Change α)) : (after history).Lists (listing history) := by
  have follows (m : Matcher α) (pairs : List (Name × α)) (h : m.Lists pairs) :
      (history.foldl Matcher.changed m).Lists (history.foldl Change.listed pairs) := by
    induction history generalizing m pairs with
    | nil => exact h
    | cons c rest ih => exact ih _ _ (h.changed c)
  exact follows _ _ empty_lists

/-- After every history the tree of patterns agrees with the plain list of pairs: a name
is matched by the listeners of the patterns that cover it, the shorter patterns first and
those of one pattern in the order of registration; under a pattern each pair whose pattern
it covers is found once; taking a pair out reports that there was one exactly if it is
listed; and the size and the emptiness are those of the list. -/
theorem after_agrees_listing (history : List (Change α)) :
    let m := after history
    let pairs := listing history
    (∀ name, m.matching name =
      ((pairs.filter fun r => r.1.isPrefixOf name).mergeSort
        fun r r' => r.1.length ≤ r'.1.length).map (·.2)) ∧
    (∀ pattern, (m.under pattern).Perm
      ((pairs.filter fun r => pattern.isPrefixOf r.1).map (·.2))) ∧
    (∀ pattern listener, (m.unregister pattern listener).2 = true ↔
      (pattern, listener) ∈ pairs) ∧
    m.size = pairs.length ∧ (m.isEmpty = true ↔ pairs = []) := by
  intro m pairs
  have h : m.Lists pairs := after_lists history
  refine ⟨h.matching_eq, fun pattern => ?_, fun pattern listener => ?_, ?_, h.isEmpty_iff⟩
  · rw [under_eq h.sorted]
    exact (h.registrations_perm.filter _).map _
  · rw [unregister_found, Matcher.holds_iff]
    exact h.mem_posted
  · rw [← length_registrations, h.registrations_perm.length_eq]

example : (after [.register .root 1, .register .root 2, .unregister .root 1,
    .register .root 1]).matching .root = [2, 1] := by decide

end Matcher

end NamedContent
