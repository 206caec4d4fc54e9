import Mathlib
import NamedContent.Proofs.Traffic.Callers
import NamedContent.Proofs.Traffic.Publication

/-!
# Blocks that stay

A persistent buffer that nobody closes keeps an entry under every name that it
has had, unless somebody takes that name away.
-/

set_option autoImplicit false

namespace NamedContent

namespace Traffic

variable {κ : Type}

/-- The move closes nothing and takes none of the blocks away. -/
def Move.Keeps (blocks : List Block) : Move κ → Prop
  | .remove name => ∀ b ∈ blocks, b.name ≠ name
  | .clear => blocks = []
  | .close _ => False
  | _ => True

theorem Move.Keeps.not_close {blocks : List Block} {m : Move κ} (keeps : m.Keeps blocks) (who : κ) :
    m ≠ .close who := by
  rintro rfl
  exact keeps

theorem Move.Keeps.of_subset {blocks fewer : List Block} {m : Move κ} (keeps : m.Keeps blocks)
    (subset : fewer ⊆ blocks) : m.Keeps fewer := by
  cases m with
  | remove name => exact fun b mem => keeps b (subset mem)
  | clear => exact List.subset_nil.mp (keeps ▸ subset)
  | close who => exact keeps
  | _ => trivial

/-- The move closes nothing, and puts and takes nothing under the root. -/
def Move.Spares (root : Name) : Move κ → Prop
  | .put _ block => root.isPrefixOf block.name = false
  | .remove name => root.isPrefixOf name = false
  | .clear | .close _ => False
  | _ => True

structure Lasting (t : Traffic κ) : Prop where
  sound : t.Sound
  accepting : t.buffer.phase = .accepting
  unclosing : t.Unclosing
  persistent : t.buffer.bestEffort = false

def HasAll (t : Traffic κ) (blocks : List Block) : Prop :=
  ∀ b ∈ blocks, ∃ e, (b.name, e) ∈ t.buffer.entries.toList

variable [DecidableEq κ] {t : Traffic κ} {m : Move κ} {f : Effect κ} {blocks : List Block}

theorem Trade.present_of_inserts (trade : t.Trade m f) (sound : t.Sound) {block : Block}
    (inserts : t.inserts? m = some block) : ∃ e, (block.name, e) ∈ f.buffer.entries.toList := by
  cases trade with
  | files puts tried _ here =>
    obtain rfl := Option.some.inj (here.symm.trans inserts)
    rw [(filed_of_tryInsert sound tried).entries]
    exact ⟨_, Table.mem_insert.mpr (.inl rfl)⟩
  | serves _ _ _ _ _ _ none | fetches _ _ _ _ _ _ none | neither _ none =>
    rw [none] at inserts
    contradiction

section Keeps

variable (h : t.Lasting)
include h

theorem Lasting.step (keeps : m.Keeps blocks) : (t.step m).traffic.Lasting := by
  obtain ⟨f, outcome, shows⟩ := t.step_explained m
  rw [shows.traffic]
  obtain ⟨accepting, unclosing⟩ := outcome.stays_open h.sound h.accepting h.unclosing keeps.not_close
  exact ⟨outcome.sound h.sound _, accepting, unclosing,
    ((outcome.change h.sound.buffer).bestEffort h.sound.buffer).trans h.persistent⟩

theorem Lasting.hasAll_step (keeps : m.Keeps blocks) (there : t.HasAll blocks) :
    (t.step m).traffic.HasAll blocks := by
  intro b mem
  obtain ⟨f, outcome, shows⟩ := t.step_explained m
  obtain ⟨e, listed⟩ := there b mem
  rw [shows.traffic]
  cases outcome.fate shows.answer h.sound listed with
  | stays listed' => exact ⟨e, listed'⟩
  | read _ _ listed' => exact ⟨_, listed'⟩
  | replaced inserts same =>
    exact same ▸ (outcome.trade shows.answer).present_of_inserts h.sound inserts
  | swept best =>
    rw [h.persistent] at best
    contradiction
  | removed move =>
    subst move
    exact absurd rfl (keeps b mem)
  | cleared move =>
    subst move
    rw [show blocks = [] from keeps] at mem
    contradiction
  | shut closing => exact absurd closing (h.unclosing.not_closing keeps.not_close)

theorem Lasting.run {ms : List (Move κ)} (keeps : ∀ m ∈ ms, m.Keeps blocks)
    (there : t.HasAll blocks) : (t.run ms).Lasting ∧ (t.run ms).HasAll blocks := by
  induction ms generalizing t with
  | nil => exact ⟨h, there⟩
  | cons m rest ih =>
    have first := keeps m List.mem_cons_self
    exact ih (h.step first) (fun m' mem => keeps m' (List.mem_cons_of_mem _ mem))
      (h.hasAll_step first there)

end Keeps

theorem run_lasting {config : Buffer.Config} (persistent : config.mode = .persistent)
    {ms : List (Move κ)} (accepting : ((ofConfig config : Traffic κ).run ms).buffer.phase = .accepting) :
    ((ofConfig config).run ms).Lasting where
  sound := run_sound config ms
  accepting := accepting
  unclosing := run_unclosing config ms accepting
  persistent := by
    rw [Buffer.bestEffort, run_config, persistent]
    rfl

theorem PutsOn.present {who : κ} {block : Block} (puts : t.PutsOn m who block) (sound : t.Sound)
    {answer : Answer} (done : (t.step m).answer = some (.ok answer)) :
    ∃ e, (block.name, e) ∈ (t.step m).traffic.buffer.entries.toList := by
  have inserts : t.inserts? m = some block := by
    rw [inserts?, done]
    obtain ⟨rfl, -⟩ | ⟨rfl, deadline, woken, waits⟩ := puts
    · rfl
    · simp [putBlock?, waits]
  obtain ⟨f, outcome, shows⟩ := t.step_explained m
  rw [shows.traffic]
  exact (outcome.trade shows.answer).present_of_inserts sound inserts

theorem put_refused {who : κ} (free : t.call? who = none) (phase : t.buffer.phase ≠ .accepting)
    (block : Block) : (t.step (.put who block)).answer = some (.error .closedBuffer) := by
  have refused : t.buffer.tryInsert block = .refused .closedBuffer := by
    rw [Buffer.tryInsert, if_pos phase]
  rw [step, begin_free free, attemptPut, refused]
  rfl

end Traffic

end NamedContent
