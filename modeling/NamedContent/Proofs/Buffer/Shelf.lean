import Mathlib
import NamedContent.Proofs.Buffer.Dispatch

/-!
# What puts and requests see of the entries

How often a block has been delivered matters to puts and requests only in
best-effort mode, and there only whether it was at all. What they find depends
on nothing else.
-/

set_option autoImplicit false

namespace NamedContent

namespace Table

variable {κ ν μ : Type} [Ord κ]

def mapValues (t : Table κ ν) (f : ν → μ) : Table κ μ :=
  ⟨t.toList.map fun e => (e.1, f e.2), List.pairwise_map.mpr t.ascending⟩

variable {f : ν → μ}

theorem startingAt_mapValues (t : Table κ ν) (k : κ) :
    (t.mapValues f).startingAt k = (t.startingAt k).map fun e => (e.1, f e.2) :=
  List.dropWhile_map ..

theorem size_mapValues (t : Table κ ν) : (t.mapValues f).size = t.size := List.length_map _

theorem filter_mapValues (t : Table κ ν) (p : κ → μ → Bool) :
    (t.mapValues f).filter p = (t.filter fun k v => p k (f v)).mapValues f :=
  eq_of_toList (List.filter_map ..)

theorem place_map (k : κ) (v : ν) (l : List (κ × ν)) :
    place k (f v) (l.map fun e => (e.1, f e.2)) = (place k v l).map fun e => (e.1, f e.2) := by
  induction l with
  | nil => rfl
  | cons e rest ih =>
    rw [List.map_cons, place, place]
    cases compare k e.1 with
    | lt => rfl
    | eq => rfl
    | gt => exact congrArg _ ih

theorem insert_mapValues [Std.TransOrd κ] (t : Table κ ν) (k : κ) (v : ν) :
    (t.mapValues f).insert k (f v) = (t.insert k v).mapValues f :=
  eq_of_toList (place_map k v t.toList)

variable [DecidableEq κ]

theorem find?_mapValues (t : Table κ ν) (k : κ) : (t.mapValues f).find? k = (t.find? k).map f := by
  rw [find?, find?, mapValues, List.find?_map, Option.map_map, Option.map_map]
  rfl

theorem erase_mapValues (t : Table κ ν) (k : κ) :
    (t.mapValues f).erase k = (t.erase k).mapValues f := t.filter_mapValues _

theorem contains_mapValues (t : Table κ ν) (k : κ) :
    (t.mapValues f).contains k = t.contains k := by
  rw [contains, contains, find?_mapValues, Option.isSome_map]

end Table

def Entry.mark (best : Bool) (e : Entry) : Entry :=
  { e with deliveries := if best ∧ e.deliveries ≠ 0 then 1 else 0 }

namespace Buffer

variable {b b' : Buffer}

def shelf (b : Buffer) : Table Name Entry := b.entries.mapValues (Entry.mark b.bestEffort)

theorem contains_eq (b : Buffer) (name : Name) :
    b.entries.contains name = b.shelf.contains name := (Table.contains_mapValues _ _).symm

theorem size_eq (b : Buffer) : b.size = b.shelf.size := (Table.size_mapValues _).symm

theorem isAvailable_mark (b : Buffer) (interest : Interest) (e : Entry) :
    b.isAvailable interest (e.mark b.bestEffort) = b.isAvailable interest e := by
  rw [isAvailable, isAvailable]
  cases best : b.bestEffort with
  | false => rfl
  | true =>
    by_cases unread : e.deliveries = 0
    · simp [Entry.mark, unread]
    · simp [Entry.mark, unread]

theorem candidates_shelf (b : Buffer) (interest : Interest) :
    { b with entries := b.shelf }.candidates interest =
      (b.candidates interest).map (Entry.mark b.bestEffort) := by
  have available : { b with entries := b.shelf }.isAvailable interest =
      b.isAvailable interest := rfl
  have seen : b.isAvailable interest ∘ Entry.mark b.bestEffort = b.isAvailable interest :=
    funext (b.isAvailable_mark interest)
  have values : ((fun e : Name × Entry => e.2) ∘ fun e : Name × Entry => (e.1, e.2.mark b.bestEffort)) =
      Entry.mark b.bestEffort ∘ fun e : Name × Entry => e.2 := rfl
  rw [candidates, candidates, available]
  dsimp only
  rw [shelf, Table.startingAt_mapValues, List.takeWhile_map, List.map_map, values, ← List.map_map,
    List.filter_map, seen]
  rfl

theorem oldest?_mark (best : Bool) (entries : List Entry) :
    oldest? (entries.map (Entry.mark best)) = (oldest? entries).map (Entry.mark best) := by
  induction entries with
  | nil => rfl
  | cons e rest ih =>
    rw [List.map_cons, oldest?, oldest?, ih]
    cases oldest? rest with
    | none => rfl
    | some f =>
      show (if f.order < e.order then _ else _) = _
      dsimp only
      split <;> rfl

theorem select?_mark (best : Bool) (entries : List Entry) :
    select? (entries.map (Entry.mark best)) = (select? entries).map (Entry.mark best) := by
  have segments : (entries.map (Entry.mark best)).find? (fun e => e.block.name.isSegment) =
      (entries.find? fun e => e.block.name.isSegment).map (Entry.mark best) := List.find?_map ..
  rw [select?, select?, segments]
  cases entries.find? fun e => e.block.name.isSegment with
  | some e => rfl
  | none => exact oldest?_mark best entries

/-- Two buffers that look the same to puts and requests, apart from those who wait. -/
structure Alike (b b' : Buffer) : Prop where
  config : b'.config = b.config
  phase : b'.phase = b.phase
  capacity : b'.capacity = b.capacity
  namespaces : b'.namespaces = b.namespaces
  nextOrder : b'.nextOrder = b.nextOrder
  shelf : b'.shelf = b.shelf

namespace Alike

theorem bestEffort (h : b.Alike b') : b'.bestEffort = b.bestEffort := by
  rw [Buffer.bestEffort, Buffer.bestEffort, h.config]

theorem size (h : b.Alike b') : b'.size = b.size := by rw [size_eq, size_eq, h.shelf]

theorem contains (h : b.Alike b') (name : Name) :
    b'.entries.contains name = b.entries.contains name := by
  rw [contains_eq, contains_eq, h.shelf]

theorem isFullFor (h : b.Alike b') (name : Name) : b'.isFullFor name = b.isFullFor name := by
  rw [Buffer.isFullFor, Buffer.isFullFor, h.contains, h.capacity, h.size]

theorem admits (h : b.Alike b') (name : Name) : b'.admits name = b.admits name := by
  rw [Buffer.admits, Buffer.admits, h.namespaces]

theorem marks (h : b.Alike b') : b'.entries.mapValues (Entry.mark b.bestEffort) =
      b.entries.mapValues (Entry.mark b.bestEffort) := by
  have same := h.shelf
  rwa [Buffer.shelf, Buffer.shelf, h.bestEffort] at same

theorem with_entries (h : b.Alike b') {entries entries' : Table Name Entry}
    (same : entries'.mapValues (Entry.mark b.bestEffort) =
      entries.mapValues (Entry.mark b.bestEffort)) :
    { b with entries }.Alike { b' with entries := entries' } where
  config := h.config
  phase := h.phase
  capacity := h.capacity
  namespaces := h.namespaces
  nextOrder := h.nextOrder
  shelf := by
    show entries'.mapValues (Entry.mark b'.bestEffort) = _
    rw [h.bestEffort]
    exact same

theorem find? (h : b.Alike b') (name : Name) :
    (b'.entries.find? name).map (Entry.mark b.bestEffort) =
      (b.entries.find? name).map (Entry.mark b.bestEffort) := by
  rw [← Table.find?_mapValues, ← Table.find?_mapValues, h.marks]

theorem select? (h : b.Alike b') (interest : Interest) :
    (Buffer.select? (b'.candidates interest)).map (Entry.mark b.bestEffort) =
      (Buffer.select? (b.candidates interest)).map (Entry.mark b.bestEffort) := by
  have same : { b' with entries := b'.shelf }.candidates interest =
      { b with entries := b.shelf }.candidates interest := by
    rw [candidates, candidates, h.shelf]
    have available : { b' with entries := b.shelf }.isAvailable interest =
        { b with entries := b.shelf }.isAvailable interest := by
      funext e
      show (_ && !(b'.bestEffort && _)) = (_ && !(b.bestEffort && _))
      rw [h.bestEffort]
    rw [available]
  rw [candidates_shelf, candidates_shelf, h.bestEffort] at same
  rw [← select?_mark, ← select?_mark, same]

end Alike

theorem mark_afterRead {best : Bool} {e e' : Entry} (same : e'.mark best = e.mark best)
    (unread : best = true → e.deliveries = 0) :
    e'.afterRead.mark best = e.afterRead.mark best := by
  obtain ⟨block, order, deliveries⟩ := Entry.mk.inj same
  cases best with
  | false => simp [Entry.mark, Entry.afterRead, block, order]
  | true =>
    have unread' : e'.deliveries = 0 := by simpa [unread rfl] using deliveries
    simp [Entry.mark, Entry.afterRead, block, order, unread rfl, unread']

theorem Alike.take?_cases (h : b.Alike b') (interest : Interest) :
    (b.take? interest = none ∧ b'.take? interest = none) ∨
      ∃ block entries entries', b.take? interest = some (block, { b with entries }) ∧
        b'.take? interest = some (block, { b' with entries := entries' }) ∧
        entries'.mapValues (Entry.mark b.bestEffort) =
          entries.mapValues (Entry.mark b.bestEffort) := by
  have same := h.select? interest
  rw [take?, take?]
  cases found : Buffer.select? (b.candidates interest) with
  | none =>
    cases found' : Buffer.select? (b'.candidates interest) with
    | none => exact .inl ⟨rfl, rfl⟩
    | some e' =>
      rw [found, found'] at same
      contradiction
  | some e =>
    cases found' : Buffer.select? (b'.candidates interest) with
    | none =>
      rw [found, found'] at same
      contradiction
    | some e' =>
      rw [found, found', Option.map_some, Option.map_some, Option.some_inj] at same
      have block : e'.block = e.block := (Entry.mk.inj same).1
      have available := (List.mem_filter.mp (mem_of_select? found)).2
      refine .inr ⟨e.block, _, _, rfl, by rw [Option.map_some, block], ?_⟩
      rw [← Table.insert_mapValues, ← Table.insert_mapValues, h.marks,
        mark_afterRead same fun best => unread_of_available best available]

theorem Alike.makeRoom (h : b.Alike b') (name : Name) :
    (b.makeRoom name).Alike (b'.makeRoom name) := by
  rw [Buffer.makeRoom, Buffer.makeRoom, h.isFullFor, h.bestEffort]
  split
  · rename_i swept
    have best : b.bestEffort = true := (Bool.and_eq_true_iff.mp swept).2
    have drops (t : Table Name Entry) :
        (t.filter fun _ e => e.deliveries = 0).mapValues (Entry.mark b.bestEffort) =
          (t.mapValues (Entry.mark b.bestEffort)).filter fun _ e => e.deliveries = 0 := by
      rw [Table.filter_mapValues]
      congr 2
      funext _ e
      by_cases unread : e.deliveries = 0
      · simp [Entry.mark, unread]
      · simp [Entry.mark, unread, best]
    apply h.with_entries
    rw [drops, drops, h.marks]
  · exact h

end Buffer

end NamedContent
