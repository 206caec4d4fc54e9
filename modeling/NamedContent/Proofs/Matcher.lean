import Mathlib
import NamedContent.Matcher
import NamedContent.Proofs.Name.Order

/-!
# The tree of patterns, pattern by pattern

In a tree with ascending branches the listeners of each pattern stand at one
place. A registration changes that place and no other, and a name is matched by
the listeners of all patterns that cover it, the shorter patterns first.
-/

set_option autoImplicit false

namespace NamedContent

namespace Branches

variable {α : Type}

def StartsAbove (c : Component) : Branches α → Prop
  | nil => True
  | node label _ _ _ => compare c label = .lt

def Sorted : Branches α → Prop
  | nil => True
  | node label _ below next => below.Sorted ∧ next.Sorted ∧ next.StartsAbove label

theorem StartsAbove.trans {c d : Component} {t : Branches α} (lt : compare c d = .lt)
    (h : t.StartsAbove d) : t.StartsAbove c := by
  cases t with
  | nil => trivial
  | node label here below next => exact Std.TransCmp.lt_trans lt h

theorem sprout_sorted (l : α) (c : Component) (path : List Component) {next : Branches α}
    (sorted : next.Sorted) (above : next.StartsAbove c) : (sprout l c path next).Sorted := by
  induction path generalizing c next with
  | nil => exact ⟨trivial, sorted, above⟩
  | cons d path ih => exact ⟨ih d trivial trivial, sorted, above⟩

theorem sprout_startsAbove (l : α) {b c : Component} (path : List Component) (next : Branches α)
    (lt : compare b c = .lt) : (sprout l c path next).StartsAbove b := by
  cases path <;> exact lt

theorem along_nil (t : Branches α) : t.along [] = [] := by
  cases t <;> rfl

/-- The listeners at the end of the path, in order of registration. -/
def posted : Branches α → Component → List Component → List α
  | nil, _, _ => []
  | node label here below next, c, path =>
    if c = label then
      match path with
      | [] => here
      | d :: rest => posted below d rest
    else posted next c path

theorem posted_of_startsAbove {t : Branches α} {c : Component} (path : List Component)
    (sorted : t.Sorted) (above : t.StartsAbove c) : t.posted c path = [] := by
  induction t with
  | nil => rfl
  | node label here below next _ ih =>
    have apart : c ≠ label := by
      rintro rfl
      simp [StartsAbove] at above
    simp only [posted, if_neg apart]
    exact ih sorted.2.1 (sorted.2.2.trans above)

theorem along_eq (t : Branches α) (c : Component) (path : List Component) :
    t.along (c :: path) =
      (List.range (path.length + 1)).flatMap fun depth => t.posted c (path.take depth) := by
  induction t generalizing c path with
  | nil => simp [along, posted]
  | node label here below next ihb ihn =>
    by_cases same : c = label
    · rw [along, if_pos same, List.range_succ_eq_map, List.flatMap_cons, List.flatMap_map]
      cases path with
      | nil => simp [along_nil, posted, same]
      | cons d rest =>
        rw [ihb d rest]
        simp [posted, same]
    · simp only [along, posted, if_neg same]
      exact ihn c path

theorem posted_sprout {l : α} {c c' : Component} {path path' : List Component}
    {next : Branches α} : (sprout l c path next).posted c' path' =
      if c' = c then (if path' = path then [l] else []) else next.posted c' path' := by
  induction path generalizing c c' path' next with
  | nil =>
    by_cases same : c' = c
    · cases path' <;> simp [sprout, posted, same]
    · simp [sprout, posted, same]
  | cons d path ih =>
    by_cases same : c' = c
    · cases path' with
      | nil => simp [sprout, posted, same]
      | cons d' path' =>
        by_cases below : d' = d
        · simp [sprout, posted, same, ih, below]
        · simp [sprout, posted, same, ih, below]
    · simp [sprout, posted, same]

theorem keep_startsAbove {b label : Component} {here : List α} {below next : Branches α}
    (above : (node label here below next).StartsAbove b) (later : next.StartsAbove label) :
    (keep label here below next).StartsAbove b := by
  unfold keep
  split
  · exact later.trans above
  · exact above

theorem keep_sorted {label : Component} {here : List α} {below next : Branches α}
    (sorted : (node label here below next).Sorted) : (keep label here below next).Sorted := by
  unfold keep
  split
  · exact sorted.2.1
  · exact sorted

theorem posted_keep {label c : Component} {here : List α} {below next : Branches α}
    {path : List Component} (sorted : (node label here below next).Sorted) :
    (keep label here below next).posted c path = (node label here below next).posted c path := by
  unfold keep
  split
  · rename_i bare
    obtain ⟨rfl, cut⟩ : here = [] ∧ below.isNil = true := by simpa using bare
    obtain rfl : below = nil := by cases below <;> simp_all [isNil]
    by_cases same : c = label
    · subst same
      rw [posted_of_startsAbove path sorted.2.1 sorted.2.2]
      cases path <;> simp [posted]
    · simp only [posted, if_neg same]
  · rfl

variable [DecidableEq α]

theorem register_startsAbove {l : α} {t : Branches α} {b c : Component} {path : List Component}
    (above : t.StartsAbove b) (lt : compare b c = .lt) : (t.register l c path).StartsAbove b := by
  cases t with
  | nil => exact sprout_startsAbove l path nil lt
  | node label here below next =>
    unfold register
    split
    · exact sprout_startsAbove l path _ lt
    · exact above
    · cases path <;> exact above

theorem register_sorted (l : α) {t : Branches α} (c : Component) (path : List Component)
    (sorted : t.Sorted) : (t.register l c path).Sorted := by
  induction t generalizing c path with
  | nil => exact sprout_sorted l c path trivial trivial
  | node label here below next ihb ihn =>
    obtain ⟨hb, hn, above⟩ := sorted
    unfold register
    split
    · rename_i lt
      exact sprout_sorted l c path ⟨hb, hn, above⟩ lt
    · rename_i gt
      exact ⟨hb, ihn c path hn, register_startsAbove above (Std.OrientedCmp.lt_of_gt gt)⟩
    · cases path with
      | nil => exact ⟨hb, hn, above⟩
      | cons d rest => exact ⟨ihb d rest hb, hn, above⟩

theorem posted_register {l : α} {t : Branches α} {c c' : Component} {path path' : List Component}
    (sorted : t.Sorted) : (t.register l c path).posted c' path' =
      if c' = c ∧ path' = path then
        if l ∈ t.posted c path then t.posted c path else t.posted c path ++ [l]
      else t.posted c' path' := by
  induction t generalizing c c' path path' with
  | nil =>
    rw [register, posted_sprout]
    by_cases same : c' = c
    · simp [posted, same]
    · simp [posted, same]
  | node label here below next ihb ihn =>
    unfold register
    split
    · rename_i lt
      have absent (path : List Component) : (node label here below next).posted c path = [] :=
        posted_of_startsAbove path sorted lt
      rw [posted_sprout]
      by_cases same : c' = c
      · simp [same, absent]
      · simp [same]
    · rename_i gt
      have apart : c ≠ label := by
        rintro rfl
        simp at gt
      by_cases same : c' = label
      · have other : c' ≠ c := same ▸ apart.symm
        simp [posted, same, apart.symm]
      · simp only [posted, if_neg same, if_neg apart]
        exact ihn sorted.2.1
    · rename_i eq
      obtain rfl := Std.LawfulEqOrd.eq_of_compare eq
      by_cases same : c' = c
      · cases path with
        | nil => cases path' <;> simp [posted, same]
        | cons d path =>
          cases path' with
          | nil => simp [posted, same]
          | cons d' path' =>
            simp only [posted, same, if_true, true_and, List.cons.injEq]
            exact ihb sorted.1
      · cases path <;> simp [posted, same]

theorem unregister_startsAbove {l : α} {t : Branches α} {b c : Component} {path : List Component}
    (sorted : t.Sorted) (above : t.StartsAbove b) : (t.unregister l c path).1.StartsAbove b := by
  cases t with
  | nil => trivial
  | node label here below next =>
    unfold unregister
    split
    · cases path <;> exact keep_startsAbove above sorted.2.2
    · exact above

theorem unregister_sorted (l : α) {t : Branches α} (c : Component) (path : List Component)
    (sorted : t.Sorted) : (t.unregister l c path).1.Sorted := by
  induction t generalizing c path with
  | nil => trivial
  | node label here below next ihb ihn =>
    obtain ⟨hb, hn, above⟩ := sorted
    unfold unregister
    split
    · cases path with
      | nil => exact keep_sorted ⟨hb, hn, above⟩
      | cons d rest => exact keep_sorted ⟨ihb d rest hb, hn, above⟩
    · exact ⟨hb, ihn c path hn, unregister_startsAbove hn above⟩

theorem posted_unregister {l : α} {t : Branches α} {c c' : Component}
    {path path' : List Component} (sorted : t.Sorted) :
    (t.unregister l c path).1.posted c' path' =
      if c' = c ∧ path' = path then (t.posted c path).filter (· ≠ l) else t.posted c' path' := by
  induction t generalizing c c' path path' with
  | nil => simp [unregister, posted]
  | node label here below next ihb ihn =>
    obtain ⟨hb, hn, above⟩ := sorted
    unfold unregister
    by_cases here_c : c = label
    · subst here_c
      rw [if_pos rfl]
      cases path with
      | nil =>
        rw [posted_keep ⟨hb, hn, above⟩]
        by_cases same : c' = c
        · cases path' <;> simp [posted, same]
        · simp [posted, same]
      | cons d rest =>
        have left := unregister_sorted l d rest hb
        have kept : (node c here (unregister l below d rest).1 next).Sorted := ⟨left, hn, above⟩
        rw [show (keep c here (unregister l below d rest).1 next).posted c' path' =
          (node c here (unregister l below d rest).1 next).posted c' path' from posted_keep kept]
        by_cases same : c' = c
        · cases path' with
          | nil => simp [posted, same]
          | cons d' rest' =>
            simp only [posted, same, if_true, true_and, List.cons.injEq]
            exact ihb hb
        · simp [posted, same]
    · rw [if_neg here_c]
      by_cases same : c' = label
      · have apart : label ≠ c := fun h => here_c h.symm
        simp [posted, same, apart]
      · simp only [posted, if_neg same, if_neg here_c]
        exact ihn hn

theorem length_filter_ne (here : List α) (l : α) :
    ((here.filter (· ≠ l)).length != here.length) = here.contains l := by
  rw [Bool.eq_iff_iff, bne_iff_ne, List.contains_iff_mem, ne_eq,
    List.length_filter_eq_length_iff]
  simp

theorem unregister_found (l : α) (t : Branches α) (c : Component) (path : List Component) :
    (t.unregister l c path).2 = (t.posted c path).contains l := by
  induction t generalizing c path with
  | nil => rfl
  | node label here below next ihb ihn =>
    unfold unregister posted
    by_cases same : c = label
    · rw [if_pos same, if_pos same]
      cases path with
      | nil => exact length_filter_ne here l
      | cons d rest => exact ihb d rest
    · rw [if_neg same, if_neg same]
      exact ihn c path

end Branches

namespace Matcher

variable {α : Type}

def Sorted (m : Matcher α) : Prop := m.below.Sorted

theorem empty_sorted : (empty : Matcher α).Sorted := trivial

def posted (m : Matcher α) (pattern : Name) : List α :=
  match pattern.components with
  | [] => m.here
  | c :: path => m.below.posted c path

theorem posted_empty (pattern : Name) : (empty : Matcher α).posted pattern = [] := by
  unfold posted
  split <;> rfl

/-- A name is matched by the listeners of its beginnings, from the shortest on. -/
theorem matching_eq (m : Matcher α) (name : Name) : m.matching name =
    (List.range (name.length + 1)).flatMap fun depth => m.posted (name.truncate depth) := by
  obtain ⟨components⟩ := name
  rw [matching, List.range_succ_eq_map, List.flatMap_cons, List.flatMap_map]
  cases components with
  | nil => simp [Branches.along_nil, posted, Name.length, Name.truncate]
  | cons c path => simp [Branches.along_eq, posted, Name.length, Name.truncate]

variable [DecidableEq α]

def holds (m : Matcher α) (pattern : Name) (l : α) : Bool := (m.posted pattern).contains l

theorem holds_iff {m : Matcher α} {pattern : Name} {l : α} :
    m.holds pattern l = true ↔ l ∈ m.posted pattern := List.contains_iff_mem

theorem not_holds_empty (pattern : Name) (l : α) : (empty : Matcher α).holds pattern l = false := by
  rw [holds, posted_empty]
  rfl

/-- Matching meets exactly the listeners of the patterns that cover the name. -/
theorem mem_matching {m : Matcher α} {name : Name} {l : α} :
    l ∈ m.matching name ↔ ∃ pattern : Name, pattern.isPrefixOf name = true ∧ m.holds pattern l := by
  simp only [matching_eq, List.mem_flatMap, List.mem_range, Nat.lt_succ_iff, holds_iff]
  constructor
  · rintro ⟨depth, -, listed⟩
    exact ⟨_, Name.isPrefixOf_iff.mpr (List.take_prefix depth _), listed⟩
  · rintro ⟨pattern, covers, listed⟩
    obtain ⟨within, same⟩ := Name.isPrefixOf_iff_truncate.mp covers
    exact ⟨pattern.length, within, same.symm ▸ listed⟩

theorem register_sorted {m : Matcher α} (pattern : Name) (l : α) (sorted : m.Sorted) :
    (m.register pattern l).Sorted := by
  unfold register
  split
  · exact sorted
  · exact Branches.register_sorted l _ _ sorted

theorem unregister_sorted {m : Matcher α} (pattern : Name) (l : α) (sorted : m.Sorted) :
    (m.unregister pattern l).1.Sorted := by
  unfold unregister
  split
  · exact sorted
  · exact Branches.unregister_sorted l _ _ sorted

theorem posted_register {m : Matcher α} {pattern pattern' : Name} {l : α} (sorted : m.Sorted) :
    (m.register pattern l).posted pattern' =
      if pattern' = pattern then
        if l ∈ m.posted pattern then m.posted pattern else m.posted pattern ++ [l]
      else m.posted pattern' := by
  obtain ⟨path⟩ := pattern
  obtain ⟨path'⟩ := pattern'
  cases path with
  | nil =>
    cases path' with
    | nil =>
      rw [if_pos rfl]
      rfl
    | cons c' path' => simp [register, posted]
  | cons c path =>
    cases path' with
    | nil => simp [register, posted]
    | cons c' path' =>
      simp only [register, posted, Name.mk.injEq, List.cons.injEq]
      exact Branches.posted_register sorted

theorem posted_unregister {m : Matcher α} {pattern pattern' : Name} {l : α} (sorted : m.Sorted) :
    (m.unregister pattern l).1.posted pattern' =
      if pattern' = pattern then (m.posted pattern).filter (· ≠ l) else m.posted pattern' := by
  obtain ⟨path⟩ := pattern
  obtain ⟨path'⟩ := pattern'
  cases path with
  | nil => cases path' <;> simp [unregister, posted]
  | cons c path =>
    cases path' with
    | nil => simp [unregister, posted]
    | cons c' path' =>
      simp only [unregister, posted, Name.mk.injEq, List.cons.injEq]
      exact Branches.posted_unregister sorted

/-- A removal reports that there was something to remove exactly if the pair was registered. -/
theorem unregister_found (m : Matcher α) (pattern : Name) (l : α) :
    (m.unregister pattern l).2 = m.holds pattern l := by
  obtain ⟨path⟩ := pattern
  cases path with
  | nil => exact Branches.length_filter_ne m.here l
  | cons c path => exact Branches.unregister_found l m.below c path

theorem holds_register {m : Matcher α} {pattern pattern' : Name} {l l' : α} (sorted : m.Sorted) :
    (m.register pattern l).holds pattern' l' = true ↔
      m.holds pattern' l' = true ∨ (pattern' = pattern ∧ l' = l) := by
  rw [holds_iff, holds_iff, posted_register sorted]
  by_cases same : pattern' = pattern
  · subst same
    by_cases old : l ∈ m.posted pattern'
    · simp only [if_true, if_pos old, true_and]
      exact ⟨.inl, fun h => h.elim id fun new => new ▸ old⟩
    · simp [old]
  · simp [same]

theorem holds_unregister {m : Matcher α} {pattern pattern' : Name} {l l' : α} (sorted : m.Sorted) :
    (m.unregister pattern l).1.holds pattern' l' = true ↔
      m.holds pattern' l' = true ∧ ¬(pattern' = pattern ∧ l' = l) := by
  rw [holds_iff, holds_iff, posted_unregister sorted]
  by_cases same : pattern' = pattern
  · simp [same]
  · simp [same]

end Matcher

end NamedContent
