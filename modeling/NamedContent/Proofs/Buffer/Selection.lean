import Mathlib
import NamedContent.Proofs.Buffer.Waiters
import NamedContent.Proofs.Name.Order

/-!
# What a request finds

The scan from the name of the interest to the last name that it covers misses
no available entry, so a request finds one exactly if there is one.
-/

set_option autoImplicit false

namespace NamedContent.Buffer

theorem mem_candidates {b : Buffer} (h : b.Consistent) {interest : Interest} {e : Entry} :
    e ∈ b.candidates interest ↔
      (e.block.name, e) ∈ b.entries.toList ∧ b.isAvailable interest e = true := by
  rw [candidates, List.mem_filter, List.mem_map]
  constructor
  · intro found
    obtain ⟨⟨⟨name, e⟩, scanned, rfl⟩, available⟩ := found
    have listed := (Table.mem_startingAt.mp (List.takeWhile_subset _ scanned)).1
    rw [h.keyed name e listed]
    exact ⟨listed, available⟩
  · intro found
    obtain ⟨listed, available⟩ := found
    refine ⟨⟨(e.block.name, e), ?_, rfl⟩, available⟩
    have covers : interest.name.isPrefixOf e.block.name = true := by
      rw [isAvailable, Interest.accepts, Bool.and_eq_true, Bool.and_eq_true] at available
      exact available.1.1
    have from_there : (e.block.name, e) ∈ b.entries.startingAt interest.name :=
      Table.mem_startingAt.mpr ⟨listed, Name.compare_ne_lt_of_isPrefixOf covers⟩
    apply Table.mem_takeWhile_of_ascending (b.entries.startingAt_ascending _) from_there
    intro y scanned before
    have least := (Table.mem_startingAt.mp scanned).2
    apply Name.isPrefixOf_of_between covers least
    rcases before with rfl | lt
    · simp
    · simp [lt]

theorem unread_of_available {b : Buffer} (best : b.bestEffort = true) {interest : Interest}
    {e : Entry} (available : b.isAvailable interest e = true) : e.deliveries = 0 := by
  simpa [isAvailable, best] using (Bool.and_eq_true_iff.mp available).2

theorem oldest?_isSome {entries : List Entry} (some : entries ≠ []) :
    (oldest? entries).isSome = true := by
  cases entries with
  | nil => contradiction
  | cons e rest =>
    rw [oldest?]
    split
    · rfl
    · split <;> rfl

theorem mem_of_oldest? {entries : List Entry} {e : Entry} (found : oldest? entries = some e) :
    e ∈ entries := by
  induction entries generalizing e with
  | nil => contradiction
  | cons first rest ih =>
    rw [oldest?] at found
    split at found
    · obtain rfl := Option.some.inj found
      exact List.mem_cons_self
    · rename_i f later
      by_cases older : f.order < first.order
      · rw [if_pos older] at found
        obtain rfl := Option.some.inj found
        exact List.mem_cons_of_mem _ (ih later)
      · rw [if_neg older] at found
        obtain rfl := Option.some.inj found
        exact List.mem_cons_self

theorem oldest?_le {entries : List Entry} {e f : Entry} (found : oldest? entries = some e)
    (hf : f ∈ entries) : e.order ≤ f.order := by
  induction entries generalizing e with
  | nil => contradiction
  | cons first rest ih =>
    rw [oldest?] at found
    split at found
    · rename_i nothing
      have alone : rest = [] := by
        by_contra some
        simpa [nothing] using oldest?_isSome some
      obtain rfl := Option.some.inj found
      rw [alone, List.mem_singleton] at hf
      rw [hf]
    · rename_i g later
      have least : e.order ≤ first.order ∧ e.order ≤ g.order := by
        split at found
        · rename_i older
          obtain rfl := Option.some.inj found
          exact ⟨older.le, Nat.le_refl _⟩
        · rename_i younger
          obtain rfl := Option.some.inj found
          exact ⟨Nat.le_refl _, Nat.not_lt.mp younger⟩
      rcases List.mem_cons.mp hf with rfl | inside
      · exact least.1
      · exact least.2.trans (ih later inside)

theorem mem_of_select? {entries : List Entry} {e : Entry} (found : select? entries = some e) :
    e ∈ entries := by
  rw [select?] at found
  split at found
  · rename_i segment
    obtain rfl := Option.some.inj found
    exact List.mem_of_find?_eq_some segment
  · exact mem_of_oldest? found

theorem select?_eq_none {entries : List Entry} : select? entries = none ↔ entries = [] := by
  constructor
  · intro found
    by_contra some
    rw [select?] at found
    split at found
    · contradiction
    · have other := oldest?_isSome some
      rw [found] at other
      contradiction
  · intro none
    rw [none]
    rfl

theorem take?_eq_none {b : Buffer} (h : b.Consistent) {interest : Interest} :
    b.take? interest = none ↔
      ∀ name e, (name, e) ∈ b.entries.toList → b.isAvailable interest e = false := by
  rw [take?, Option.map_eq_none_iff, select?_eq_none, List.eq_nil_iff_forall_not_mem]
  constructor
  · intro nothing name e listed
    rw [Bool.eq_false_iff]
    intro available
    exact nothing e ((mem_candidates h).mpr ⟨by rwa [h.keyed name e listed], available⟩)
  · intro nothing e found
    obtain ⟨listed, available⟩ := (mem_candidates h).mp found
    rw [nothing _ e listed] at available
    contradiction

theorem take?_eq_some {b : Buffer} (h : b.Consistent) {interest : Interest} {block : Block}
    {b' : Buffer} (taken : b.take? interest = some (block, b')) :
    ∃ e, (e.block.name, e) ∈ b.entries.toList ∧ b.isAvailable interest e = true ∧
      block = e.block ∧ b' = { b with entries := b.entries.insert e.block.name e.afterRead } := by
  obtain ⟨e, found, eq⟩ := Option.map_eq_some_iff.mp taken
  obtain ⟨rfl, rfl⟩ := Prod.mk.inj eq
  obtain ⟨listed, available⟩ := (mem_candidates h).mp (mem_of_select? found)
  exact ⟨e, listed, available, rfl, rfl⟩

theorem candidates_ascending {b : Buffer} (h : b.Consistent) (interest : Interest) :
    (b.candidates interest).Pairwise fun e f => compare e.block.name f.block.name = .lt := by
  apply List.Pairwise.filter
  apply List.Pairwise.map (R := fun x y => compare x.2.block.name y.2.block.name = .lt)
  · exact fun _ _ lt => lt
  · have scanned := (b.entries.startingAt_ascending interest.name).sublist
      (List.takeWhile_sublist fun x => interest.name.isPrefixOf x.1)
    apply scanned.imp_of_mem
    intro x y hx hy lt
    have listed {z : Name × Entry} (hz : z ∈ (b.entries.startingAt interest.name).takeWhile
        fun x => interest.name.isPrefixOf x.1) : z ∈ b.entries.toList :=
      (Table.mem_startingAt.mp (List.takeWhile_subset _ hz)).1
    rwa [h.keyed x.1 x.2 (listed hx), h.keyed y.1 y.2 (listed hy)]

theorem select?_first {entries : List Entry}
    (ascending : entries.Pairwise fun e f => compare e.block.name f.block.name = .lt) {e f : Entry}
    (found : select? entries = some e) (hf : f ∈ entries)
    (segment : f.block.name.isSegment = true) :
    e.block.name.isSegment = true ∧ (f = e ∨ compare e.block.name f.block.name = .lt) := by
  rw [select?] at found
  split at found
  · rename_i first there
    obtain rfl := Option.some.inj found
    obtain ⟨chosen, before, after, rfl, none_before⟩ := List.find?_eq_some_iff_append.mp there
    refine ⟨chosen, ?_⟩
    rcases List.mem_append.mp hf with hf | hf
    · have plain := none_before f hf
      rw [segment] at plain
      contradiction
    · rcases List.mem_cons.mp hf with rfl | hf
      · exact .inl rfl
      · exact .inr ((List.pairwise_cons.mp (List.pairwise_append.mp ascending).2.1).1 f hf)
  · rename_i none_there
    have plain := List.find?_eq_none.mp none_there f hf
    contradiction

theorem select?_oldest {entries : List Entry}
    (plain : ∀ f ∈ entries, f.block.name.isSegment = false) {e f : Entry}
    (found : select? entries = some e) (hf : f ∈ entries) : e.order ≤ f.order := by
  rw [select?] at found
  split at found
  · rename_i first segment
    have named := List.find?_some segment
    rw [plain first (List.mem_of_find?_eq_some segment)] at named
    contradiction
  · exact oldest?_le found hf

theorem take?_first {b : Buffer} (h : b.Consistent) {interest : Interest} {block : Block}
    {b' : Buffer} (taken : b.take? interest = some (block, b')) {f : Entry}
    (listed : (f.block.name, f) ∈ b.entries.toList) (available : b.isAvailable interest f = true)
    (segment : f.block.name.isSegment = true) :
    block.name.isSegment = true ∧
      (f.block.name = block.name ∨ compare block.name f.block.name = .lt) := by
  obtain ⟨e, found, eq⟩ := Option.map_eq_some_iff.mp taken
  obtain ⟨rfl, rfl⟩ := Prod.mk.inj eq
  have first := select?_first (candidates_ascending h interest) found
    ((mem_candidates h).mpr ⟨listed, available⟩) segment
  exact ⟨first.1, first.2.imp_left fun same => by rw [same]⟩

end NamedContent.Buffer
