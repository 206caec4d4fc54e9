import Mathlib
import NamedContent.Proofs.Name.Canonical
import NamedContent.Proofs.Traffic.Age

/-!
# What a request takes from the buffer

A scan over all entries finds those that a request can have, and the request
takes one of them whenever there is one. It is the segment that comes first in
the order of names, and without segments the entry that was put first.
-/

set_option autoImplicit false

namespace NamedContent

namespace Buffer

variable {b : Buffer} {interest : Interest} {e f : Entry}

/-- The entry has a name that the interest covers, and in best-effort mode no reader yet. -/
structure Eligible (b : Buffer) (interest : Interest) (e : Entry) : Prop where
  stored : e ∈ b.entries.values
  accepted : interest.accepts e.block.name = true
  unread : b.bestEffort = true → e.deliveries = 0

theorem Consistent.mem_values (h : b.Consistent) :
    e ∈ b.entries.values ↔ (e.block.name, e) ∈ b.entries.toList := by
  rw [Table.values, List.mem_map]
  constructor
  · rintro ⟨⟨name, e⟩, listed, rfl⟩
    rwa [h.keyed name e listed]
  · exact fun listed => ⟨_, listed, rfl⟩

theorem mem_candidates_iff (h : b.Consistent) :
    e ∈ b.candidates interest ↔ b.Eligible interest e := by
  have read : (!(b.bestEffort && e.deliveries != 0)) = true ↔
      (b.bestEffort = true → e.deliveries = 0) := by
    cases b.bestEffort <;> simp
  rw [mem_candidates h, ← h.mem_values, isAvailable, Bool.and_eq_true, read]
  constructor
  · rintro ⟨stored, accepted, unread⟩
    exact ⟨stored, accepted, unread⟩
  · rintro ⟨stored, accepted, unread⟩
    exact ⟨stored, accepted, unread⟩

/-- The buffer is the same but for the number of readers of one entry, which has one more. -/
structure DeliversOnly (b : Buffer) (e : Entry) (b' : Buffer) : Prop where
  rest : b' = { b with entries := b'.entries }
  found : b'.entries.find? e.block.name =
    some { e with deliveries := (e.deliveries + 1) % UInt32.size }
  others : ∀ name, name ≠ e.block.name → b'.entries.find? name = b.entries.find? name

theorem deliversOnly_afterRead (b : Buffer) (e : Entry) :
    b.DeliversOnly e { b with entries := b.entries.insert e.block.name e.afterRead } where
  rest := rfl
  found := by rw [Table.find?_insert, if_pos rfl]; rfl
  others := by
    intro name other
    rw [Table.find?_insert, if_neg other]

end Buffer

namespace Traffic

variable {κ : Type} [DecidableEq κ] {t : Traffic κ} {who : κ} {interest : Interest} {timeout : Nat}

/-- What a request is to take: an eligible entry, among segments the one with the
least name, and where there is no segment the one that was put first. -/
structure Foremost (config : Buffer.Config) (ms : List (Move κ)) (interest : Interest)
    (e : Entry) : Prop where
  eligible : ((ofConfig config).run ms).buffer.Eligible interest e
  segments : ∀ f, ((ofConfig config).run ms).buffer.Eligible interest f →
    f.block.name.isSegment = true →
      e.block.name.isSegment = true ∧ (f = e ∨ compare e.block.name f.block.name = .lt)
  oldest : (∀ f, ((ofConfig config).run ms).buffer.Eligible interest f →
      f.block.name.isSegment = false) →
    ∀ f, ((ofConfig config).run ms).buffer.Eligible interest f →
      f = e ∨ ∃ n k, n < k ∧ (ofConfig config).PutSince ms n e.block ∧
        (ofConfig config).PutSince ms k f.block

theorem request_answered (free : t.call? who = none) (phase : t.buffer.phase ≠ .closed)
    {block : Block} : (t.step (.request who interest timeout)).answer = some (.ok (.block block)) ↔
      ∃ b, t.buffer.take? interest = some (block, b) := by
  cases taken : t.buffer.take? interest with
  | none =>
    rw [step_request_missed free phase timeout taken]
    split
    · simp [(finish_shows _ _ _ _).answer]
    · simp [wait]
  | some found =>
    rw [step_request_taken free phase timeout taken, (finish_shows _ _ _ _).answer]
    simp [Prod.ext_iff]

theorem Foremost.of_select? (config : Buffer.Config) (ms : List (Move κ)) {e : Entry}
    (found : Buffer.select? (((ofConfig config).run ms).buffer.candidates interest) = some e) :
    Foremost config ms interest e := by
  have consistent := (run_sound config ms).buffer
  have candidate {f : Entry} : f ∈ ((ofConfig config).run ms).buffer.candidates interest ↔
      ((ofConfig config).run ms).buffer.Eligible interest f :=
    Buffer.mem_candidates_iff consistent
  refine ⟨candidate.mp (Buffer.mem_of_select? found), ?_, ?_⟩
  · intro f eligible segment
    exact Buffer.select?_first (Buffer.candidates_ascending consistent interest) found
      (candidate.mpr eligible) segment
  · intro plain f eligible
    have listed := consistent.mem_values.mp (candidate.mp (Buffer.mem_of_select? found)).stored
    have listed' := consistent.mem_values.mp eligible.stored
    have le := Buffer.select?_oldest (fun f hf => plain f (candidate.mp hf)) found
      (candidate.mpr eligible)
    rcases Nat.lt_or_eq_of_le le with less | same
    · exact .inr (put_before config ms listed listed' less)
    · have named := (run_balanced config ms).distinct _ _ _ _ listed listed' same
      rw [← named] at listed'
      exact .inl (Option.some.inj ((Table.find?_eq_some.mpr listed').symm.trans
        (Table.find?_eq_some.mpr listed)))

theorem Foremost.no_smaller {config : Buffer.Config} {ms : List (Move κ)} {e f : Entry}
    (foremost : Foremost config ms interest e) {r : Name} {c : Component} {n m : UInt64}
    (named : e.block.name = r.append c) (read : c.segmentNumber? = some n)
    (eligible : ((ofConfig config).run ms).buffer.Eligible interest f)
    (named' : f.block.name = r.append (.segment m)) : ¬m < n := by
  intro less
  have before := Component.compare_segment_of_segmentNumber? read less
  have segment : f.block.name.isSegment = true := named' ▸ Name.isSegment_append r m
  obtain ⟨-, same | after⟩ := foremost.segments f eligible segment
  · have level : compare (r.append (.segment m)) (r.append c) = .eq := by
      rw [← named, ← named', same]
      exact Std.ReflOrd.compare_self
    rw [Name.compare_append, before] at level
    contradiction
  · rw [named, named', Name.compare_append, Std.OrientedOrd.eq_swap, before] at after
    contradiction

/-- A request on a buffer that is not closed is answered at once with a block exactly
if some entry is eligible. Then it takes the first segment in the order of names, and
without segments the entry that was put first. So no eligible segment of a smaller
number under the same root is passed over, and the buffer is the same but for the
reader that the entry has now. -/
theorem request_chooses (config : Buffer.Config) (ms : List (Move κ)) (who : κ)
    (interest : Interest) (timeout : Nat) (free : ((ofConfig config).run ms).call? who = none)
    (phase : ((ofConfig config).run ms).buffer.phase ≠ .closed) :
    let t := (ofConfig config).run ms
    let turn := t.step (.request who interest timeout)
    ((∃ block, turn.answer = some (.ok (.block block))) ↔ ∃ e, t.buffer.Eligible interest e) ∧
      ∀ block, turn.answer = some (.ok (.block block)) →
        ∃ e, block = e.block ∧ Foremost config ms interest e ∧
          t.buffer.DeliversOnly e turn.traffic.buffer ∧
          ∀ (r : Name) (c : Component) (n m : UInt64) (f : Entry), block.name = r.append c →
            c.segmentNumber? = some n → t.buffer.Eligible interest f →
            f.block.name = r.append (.segment m) → ¬m < n := by
  intro t turn
  have candidate {f : Entry} : f ∈ t.buffer.candidates interest ↔ t.buffer.Eligible interest f :=
    Buffer.mem_candidates_iff (run_sound config ms).buffer
  refine ⟨⟨?_, ?_⟩, ?_⟩
  · rintro ⟨block, answer⟩
    obtain ⟨b, taken⟩ := (request_answered free phase).mp answer
    obtain ⟨e, found, -⟩ := Option.map_eq_some_iff.mp taken
    exact ⟨e, candidate.mp (Buffer.mem_of_select? found)⟩
  · rintro ⟨e, eligible⟩
    have some : t.buffer.candidates interest ≠ [] := List.ne_nil_of_mem (candidate.mpr eligible)
    obtain ⟨e, found⟩ := Option.ne_none_iff_exists'.mp (mt Buffer.select?_eq_none.mp some)
    exact ⟨_, (request_answered free phase).mpr ⟨_, Option.map_eq_some_iff.mpr ⟨e, found, rfl⟩⟩⟩
  · intro block answer
    obtain ⟨b, taken⟩ := (request_answered free phase).mp answer
    have after : turn.traffic.buffer = b := by
      rw [show turn = _ from step_request_taken free phase timeout taken]
      exact finish_buffer _ _ _ _
    obtain ⟨e, found, same⟩ := Option.map_eq_some_iff.mp taken
    obtain ⟨rfl, rfl⟩ := Prod.mk.inj same
    have foremost := Foremost.of_select? config ms found
    refine ⟨e, rfl, foremost, after ▸ Buffer.deliversOnly_afterRead _ e, ?_⟩
    intro r c n m f named read eligible named'
    exact foremost.no_smaller named read eligible named'

def segmentBlock (letter : UInt8) (number : UInt64) : Block :=
  { letterBlock letter with name := (letterBlock letter).name.segmentName number }

/-- The second segment comes after the whole and before the first. -/
def segmentMoves : List (Move Nat) :=
  [.put 0 (letterBlock 97), .put 0 (segmentBlock 97 2), .put 0 (segmentBlock 97 1)]

/-- A request for the root takes the first segment, which was put last. -/
theorem first_segment_chosen :
    let t := (ofConfig {}).run segmentMoves
    let turn := t.step (.request 1 (.ofName (letterBlock 97).name) 0)
    t.call? 1 = none ∧ t.buffer.phase ≠ .closed ∧
      turn.answer = some (.ok (.block (segmentBlock 97 1))) ∧
      ∃ e, segmentBlock 97 1 = e.block ∧
        Foremost {} segmentMoves (.ofName (letterBlock 97).name) e ∧
        t.buffer.DeliversOnly e turn.traffic.buffer := by
  have free : ((ofConfig {}).run segmentMoves).call? 1 = none := by decide +kernel
  have phase : ((ofConfig {}).run segmentMoves).buffer.phase ≠ .closed := by decide +kernel
  have chooses := request_chooses {} segmentMoves 1 (.ofName (letterBlock 97).name) 0 free phase
  have answer : (((ofConfig {}).run segmentMoves).step
      (.request 1 (.ofName (letterBlock 97).name) 0)).answer =
        some (.ok (.block (segmentBlock 97 1))) := by decide +kernel
  obtain ⟨e, block, foremost, counted, -⟩ := chooses.2 _ answer
  exact ⟨free, phase, answer, e, block, foremost, counted⟩

end Traffic

end NamedContent
