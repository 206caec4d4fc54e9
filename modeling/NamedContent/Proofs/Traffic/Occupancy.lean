import Mathlib
import NamedContent.Proofs.Traffic.Fate
import NamedContent.Proofs.Traffic.Room

/-!
# How full a buffer gets

A change that leaves more blocks in the buffer files one that there was room
for. So the buffer grows only up to the capacity of the moment, and it holds
more than its capacity only after the capacity has been lowered below what was
there.
-/

set_option autoImplicit false

namespace NamedContent

namespace Buffer

variable {b b' : Buffer} {ns : List Notice}

theorem sweep_size_le (b : Buffer) : b.sweep.size ≤ b.size := List.length_filter_le _ _

theorem makeRoom_size_le (b : Buffer) (name : Name) : (b.makeRoom name).size ≤ b.size := by
  obtain same | ⟨-, -, swept⟩ := b.makeRoom_cases name
  · rw [same]
  · rw [swept]
    exact b.sweep_size_le

theorem makeRoom_of_present {name : Name} (present : b.entries.contains name = true) :
    b.makeRoom name = b := by
  obtain same | ⟨full, -, -⟩ := b.makeRoom_cases name
  · exact same
  · rw [(isFullFor_iff.mp full).1] at present
    contradiction

theorem Filed.size {block : Block} (filed : b.Filed block b' ns) :
    b'.size = if b.entries.contains block.name then b.size else b.size + 1 := by
  rw [Buffer.size, filed.entries, Table.size_insert]
  rfl

theorem Filed.size_le {block : Block} (filed : b.Filed block b' ns)
    (room : b.isFullFor block.name = false) : b'.size ≤ b.size ∨ b'.size ≤ b.capacity := by
  rw [filed.size]
  by_cases present : b.entries.contains block.name = true
  · rw [if_pos present]
    exact .inl (Nat.le_refl _)
  · rw [if_neg present]
    rw [isFullFor, Bool.and_eq_false_iff] at room
    have below : ¬b.capacity ≤ b.size := by simpa [present] using room
    exact .inr (by omega)

theorem Change.size_le (change : b.Change b' ns) (h : b.Consistent) :
    b'.size ≤ b.size ∨ b'.size ≤ b.capacity := by
  cases change with
  | sweep => exact .inl b.sweep_size_le
  | @file block _ _ _ _ room filed =>
    have made := b.makeRoom_size_le block.name
    have size := (file_filed (makeRoom_consistent h block.name) filed).size_le room
    rw [makeRoom_capacity] at size
    exact size.imp_left (·.trans made)
  | @serve _ e _ listed =>
    left
    have present : b.entries.contains e.block.name = true := Table.contains_iff.mpr ⟨e, listed⟩
    rw [Buffer.size, Table.size_insert, if_pos present]
    exact Nat.le_refl _
  | miss =>
    left
    rw [Buffer.size, forget_entries]
    exact Nat.le_refl _
  | forget id =>
    left
    rw [Buffer.size, forget_entries]
    exact Nat.le_refl _
  | shut | close | clear => exact .inl (Nat.zero_le _)
  | remove name => exact .inl (List.length_filter_le _ _)
  | subscribe opened =>
    obtain ⟨-, rfl⟩ := subscribe?_eq_some opened
    exact .inl (Nat.le_refl _)
  | dropFeed id =>
    left
    show (b.forget id).entries.size ≤ b.entries.size
    rw [forget_entries]
  | _ => exact .inl (Nat.le_refl _)

end Buffer

namespace Traffic

variable {κ : Type} [DecidableEq κ] {t : Traffic κ} {m : Move κ} {f : Effect κ}

theorem Outcome.capacity (outcome : t.Outcome m f) (sound : t.Sound)
    (other : ∀ n, m ≠ .setCapacity n) : f.buffer.capacity = t.buffer.capacity := by
  cases outcome with
  | @filed _ _ block _ _ _ _ _ tried =>
    rw [(filed_of_tryInsert sound tried).capacity, Buffer.makeRoom_capacity]
  | overfull _ tried | blocked _ tried =>
    obtain ⟨rfl, -⟩ := Buffer.tryInsert_full tried
    exact Buffer.makeRoom_capacity _ _
  | served free phase taken =>
    obtain ⟨_, -, -, -, rfl⟩ := Buffer.take?_eq_some sound.buffer taken
    rfl
  | missed => exact (Buffer.forget_sameStore _ _).capacity
  | gaveUp | cancelledRequest => exact (Buffer.forget_sameStore _ _).capacity
  | setCapacity n => exact absurd rfl (other n)
  | removeNamespace name =>
    obtain ⟨namespaces, eq⟩ := t.buffer.removeNamespace_eq name
    rw [eq]
  | removed found =>
    obtain rfl := Buffer.remove?_eq_some found
    rfl
  | subscribed opened =>
    obtain ⟨-, rfl⟩ := Buffer.subscribe?_eq_some opened
    rfl
  | read feed =>
    obtain ⟨feeds, eq⟩ := t.buffer.readFeed_eq feed
    rw [eq]
  | unsubscribed feed => exact (Buffer.forget_sameStore t.buffer feed).capacity
  | _ => rfl

theorem step_setCapacity (t : Traffic κ) (n : Nat) :
    (t.step (.setCapacity n)).traffic.buffer = { t.buffer with capacity := n } :=
  finish_buffer _ _ _ _

theorem step_size_le (sound : t.Sound) (m : Move κ) :
    (t.step m).traffic.buffer.size ≤ t.buffer.size ∨
      (t.step m).traffic.buffer.size ≤ t.buffer.capacity ∧
        (t.step m).traffic.buffer.capacity = t.buffer.capacity := by
  by_cases resized : ∃ n, m = .setCapacity n
  · obtain ⟨n, rfl⟩ := resized
    rw [step_setCapacity]
    exact .inl (Nat.le_refl _)
  · obtain ⟨f, outcome, shows⟩ := t.step_explained m
    rw [shows.traffic]
    obtain fewer | room := (outcome.change sound.buffer).size_le sound.buffer
    · exact .inl fewer
    · exact .inr ⟨room, outcome.capacity sound fun n same => resized ⟨n, same⟩⟩

omit [DecidableEq κ] in
theorem attemptPut_size {block : Block} (sound : t.Sound)
    (present : t.buffer.entries.contains block.name = true) (kept : List (κ × Call)) (who : κ)
    (deadline : Nat) :
    (({ t with calls := kept } : Traffic κ).attemptPut who block deadline).traffic.buffer.size =
      t.buffer.size := by
  have same := Buffer.makeRoom_of_present present
  rw [attemptPut]
  split
  · rw [finish_buffer]
  · rename_i b ns tried
    have filed := filed_of_tryInsert sound tried
    rw [same] at filed
    rw [finish_buffer, filed.size, if_pos present]
  · rename_i b tried
    obtain ⟨rfl, full⟩ := Buffer.tryInsert_full tried
    rw [same, Buffer.isFullFor_iff] at full
    rw [full.1] at present
    contradiction

theorem put_size {block : Block} (sound : t.Sound) (puts : t.putBlock? m = some block)
    (present : t.buffer.entries.contains block.name = true) :
    (t.step m).traffic.buffer.size = t.buffer.size := by
  cases m with
  | put who other =>
    obtain rfl := Option.some.inj puts
    show (t.begin who _).traffic.buffer.size = _
    rw [begin]
    split
    · rfl
    · exact attemptPut_size sound present t.calls who _
  | resume who =>
    rw [putBlock?] at puts
    split at puts
    · rename_i other deadline woken waits
      obtain rfl := Option.some.inj puts
      show (t.resume who).traffic.buffer.size = _
      rw [resume_put waits]
      split
      · exact attemptPut_size sound present (t.withoutCall who).calls who _
      · split
        · rw [finish_buffer]
        · rfl
    · contradiction
  | _ => contradiction

/-- A buffer that is not above its capacity stays so, unless the capacity is
lowered below what is there. -/
theorem run_size_le (sound : t.Sound) (fits : t.buffer.size ≤ t.buffer.capacity)
    (ms : List (Move κ)) (spared : ∀ before n after, ms = before ++ .setCapacity n :: after →
      (t.run before).buffer.size ≤ n) : (t.run ms).buffer.size ≤ (t.run ms).buffer.capacity := by
  induction ms generalizing t with
  | nil => exact fits
  | cons m rest ih =>
    refine ih (step_sound sound m) ?_ ?_
    · by_cases resized : ∃ n, m = .setCapacity n
      · obtain ⟨n, rfl⟩ := resized
        rw [step_setCapacity]
        exact spared [] n rest rfl
      · obtain ⟨f, outcome, shows⟩ := t.step_explained m
        have capacity : (t.step m).traffic.buffer.capacity = t.buffer.capacity := by
          rw [shows.traffic]
          exact outcome.capacity sound fun n same => resized ⟨n, same⟩
        rw [capacity]
        obtain fewer | ⟨room, -⟩ := step_size_le sound m
        · exact fewer.trans fits
        · exact room
    · intro before n after split
      exact spared (m :: before) n after (by rw [split]; rfl)

theorem run_size_antitone (sound : t.Sound) (ms : List (Move κ))
    (crowded : ∀ before m after, ms = before ++ m :: after →
      (t.run before).buffer.capacity ≤ (t.run before).buffer.size) :
    (t.run ms).buffer.size ≤ t.buffer.size := by
  induction ms generalizing t with
  | nil => exact Nat.le_refl _
  | cons m rest ih =>
    have first : (t.step m).traffic.buffer.size ≤ t.buffer.size := by
      obtain fewer | ⟨room, -⟩ := step_size_le sound m
      · exact fewer
      · exact room.trans (crowded [] m rest rfl)
    refine (ih (step_sound sound m) ?_).trans first
    intro before m' after split
    exact crowded (m :: before) m' after (by rw [split]; rfl)

/-- The buffer never takes more than its capacity. A step after which it holds
more blocks ends within the capacity in force, a put onto a name that is there
leaves the number as it is, and so the buffer is within its capacity as long as
that was never lowered below what was there. Where it was, the buffer does not
grow before it is below its capacity again. -/
theorem occupancy_bounded (config : Buffer.Config) (ms : List (Move κ)) :
    let start : Traffic κ := ofConfig config
    let t := start.run ms
    (∀ m, t.buffer.size < (t.step m).traffic.buffer.size →
      (t.step m).traffic.buffer.size ≤ (t.step m).traffic.buffer.capacity ∧
        (t.step m).traffic.buffer.capacity = t.buffer.capacity) ∧
    (∀ m block, t.putBlock? m = some block → t.buffer.entries.contains block.name = true →
      (t.step m).traffic.buffer.size = t.buffer.size) ∧
    ((∀ before n after, ms = before ++ .setCapacity n :: after →
      (start.run before).buffer.size ≤ n) → t.buffer.size ≤ t.buffer.capacity) ∧
    ∀ rest, (∀ before m after, rest = before ++ m :: after →
      (t.run before).buffer.capacity ≤ (t.run before).buffer.size) →
        (t.run rest).buffer.size ≤ t.buffer.size := by
  intro start t
  have sound : t.Sound := run_sound config ms
  refine ⟨?_, fun m block => put_size sound, ?_, run_size_antitone sound⟩
  · intro m grown
    obtain fewer | ⟨room, same⟩ := step_size_le sound m
    · exact absurd grown (Nat.not_lt.mpr fewer)
    · exact ⟨same ▸ room, same⟩
  · exact run_size_le (ofConfig_sound config) (Nat.zero_le _) ms

def fillingMoves : List (Move Nat) :=
  [.put 0 (letterBlock 97), .put 0 (letterBlock 98), .setCapacity 2]

/-- The first put makes the buffer grow, a replacement does not, and after the
capacity is lowered further a third block is not taken. -/
theorem occupancy_bounded_three :
    let start : Traffic Nat := ofConfig { capacity := 3 }
    let t := start.run fillingMoves
    let lowered := [.setCapacity 1, .put 1 (letterBlock 99)]
    (start.buffer.size < (start.step (.put 0 (letterBlock 97))).traffic.buffer.size ∧
      (start.step (.put 0 (letterBlock 97))).traffic.buffer.size ≤
        (start.step (.put 0 (letterBlock 97))).traffic.buffer.capacity) ∧
    (t.buffer.entries.contains (letterBlock 97).name = true ∧
      (t.step (.put 1 (letterBlock 97))).traffic.buffer.size = t.buffer.size) ∧
    t.buffer.size ≤ t.buffer.capacity ∧
    (∀ before m after, lowered = before ++ m :: after →
      (t.run before).buffer.capacity ≤ (t.run before).buffer.size) ∧
    (t.run lowered).buffer.size ≤ t.buffer.size := by
  intro start t lowered
  have grown : start.buffer.size < (start.step (.put 0 (letterBlock 97))).traffic.buffer.size := by
    decide +kernel
  have present : t.buffer.entries.contains (letterBlock 97).name = true := by decide +kernel
  have spared : ∀ before n after, fillingMoves = before ++ .setCapacity n :: after →
      (start.run before).buffer.size ≤ n := by
    rintro (_ | ⟨_, _ | ⟨_, _ | ⟨_, _⟩⟩⟩) n after split
    · simp [fillingMoves] at split
    · simp [fillingMoves] at split
    · obtain ⟨rfl, rfl, rfl, -⟩ : _ = _ ∧ _ = _ ∧ 2 = n ∧ _ := by simpa [fillingMoves] using split
      decide +kernel
    · simp [fillingMoves] at split
  have crowded : ∀ before m after, lowered = before ++ m :: after →
      (t.run before).buffer.capacity ≤ (t.run before).buffer.size := by
    rintro (_ | ⟨_, _ | ⟨_, _⟩⟩) m after split
    · decide +kernel
    · obtain ⟨rfl, -⟩ : _ = _ ∧ _ := by simpa [lowered] using split
      decide +kernel
    · simp [lowered] at split
  obtain ⟨grows, -⟩ := occupancy_bounded { capacity := 3 } ([] : List (Move Nat))
  obtain ⟨-, replaces, fits, shrinks⟩ := occupancy_bounded { capacity := 3 } fillingMoves
  exact ⟨⟨grown, (grows _ grown).1⟩, ⟨present, replaces _ _ rfl present⟩, fits spared, crowded,
    shrinks lowered crowded⟩

end Traffic

end NamedContent
