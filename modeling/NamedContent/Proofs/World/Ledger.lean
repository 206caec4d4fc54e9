import Mathlib
import NamedContent.Proofs.Buffer.Namespaces
import NamedContent.Proofs.Segmenter.Planning
import NamedContent.Proofs.World.Events

/-!
# The ledger of the namespaces

A namespace is registered as often as it is held. Segmenters that take one, give
it back, or are set anew keep the ledger so, and no other move changes it. What
is written under a namespace that somebody holds is admitted.
-/

set_option autoImplicit false

namespace NamedContent

/-- The namespaces are registered as these segmenters hold them, which all have
a block size. -/
structure Ledger (b : Buffer) (segmenters : List Segmenter) : Prop where
  held : ∀ name, b.holders name = segmenters.countP fun s => s.held = some name
  positive : ∀ s ∈ segmenters, 0 < s.config.blockSize

namespace Ledger

variable {b b' : Buffer} {s s' : Segmenter} {rest : List Segmenter}

theorem perm {segmenters segmenters' : List Segmenter} (h : Ledger b segmenters)
    (same : segmenters'.Perm segmenters) : Ledger b segmenters' where
  held := fun name => (h.held name).trans (same.countP_eq _).symm
  positive := fun s mem => h.positive s (same.subset mem)

theorem of_same {segmenters : List Segmenter} (h : Ledger b segmenters)
    (same : b'.namespaces = b.namespaces) : Ledger b' segmenters where
  held := fun name => by rw [Buffer.holders, same]; exact h.held name
  positive := h.positive

theorem positive_replace (h : Ledger b (s :: rest)) (positive : 0 < s'.config.blockSize) :
    ∀ x ∈ s' :: rest, 0 < x.config.blockSize := by
  intro x mem
  rcases List.mem_cons.mp mem with rfl | old
  · exact positive
  · exact h.positive x (List.mem_cons_of_mem _ old)

theorem replace (h : Ledger b (s :: rest)) (held : s'.held = s.held)
    (positive : 0 < s'.config.blockSize) : Ledger b (s' :: rest) where
  held := fun name => by rw [h.held, List.countP_cons, List.countP_cons, held]
  positive := h.positive_replace positive

theorem cons_iff (free : s.held = none) :
    Ledger b (s :: rest) ↔ Ledger b rest ∧ 0 < s.config.blockSize := by
  have same (name : Name) : (s :: rest).countP (fun s => s.held = some name) =
      rest.countP fun s => s.held = some name := by
    rw [List.countP_cons_of_neg]
    simp [free]
  constructor
  · intro h
    exact ⟨⟨fun name => (h.held name).trans (same name),
      fun x mem => h.positive x (List.mem_cons_of_mem _ mem)⟩, h.positive s List.mem_cons_self⟩
  · rintro ⟨h, positive⟩
    refine ⟨fun name => (h.held name).trans (same name).symm, fun x mem => ?_⟩
    rcases List.mem_cons.mp mem with rfl | old
    · exact positive
    · exact h.positive x old

theorem hold (h : Ledger b (s :: rest)) (free : s.held = none) {name : Name}
    (held : s'.held = some name) (config : s'.config = s.config) :
    Ledger (b.addNamespace name) (s' :: rest) where
  held := by
    intro other
    rw [Buffer.holders_addNamespace, h.held, List.countP_cons, List.countP_cons, free, held]
    simp [eq_comm]
  positive := h.positive_replace (config ▸ h.positive s List.mem_cons_self)

theorem release (h : Ledger b (s :: rest)) {name : Name} (held : s.held = some name)
    (free : s'.held = none) (config : s'.config = s.config) :
    Ledger (b.removeNamespace name).1 (s' :: rest) where
  held := by
    intro other
    rw [Buffer.holders_removeNamespace, h.held, List.countP_cons, List.countP_cons, free, held]
    by_cases same : other = name
    · simp [same]
    · simp [same, Ne.symm same]
  positive := h.positive_replace (config ▸ h.positive s List.mem_cons_self)

theorem holds (h : Ledger b (s :: rest)) {root : Name} (held : s.held = some root) :
    0 < b.holders root := by
  rw [h.held, List.countP_cons, held]
  simp

end Ledger

structure Books (t : Traffic Caller) (segmenters : List Segmenter) : Prop where
  sound : t.Sound
  ledger : Ledger t.buffer segmenters

namespace Books

variable {t : Traffic Caller} {s : Segmenter} {rest segmenters : List Segmenter}

theorem perm {segmenters' : List Segmenter} (h : Books t segmenters)
    (same : segmenters'.Perm segmenters) : Books t segmenters' :=
  ⟨h.sound, h.ledger.perm same⟩

theorem step (h : Books t segmenters) {m : Traffic.Move Caller}
    (other : ∀ name, m ≠ .addNamespace name ∧ m ≠ .removeNamespace name) :
    Books (t.step m).traffic segmenters := by
  obtain ⟨f, outcome, shows⟩ := t.step_explained m
  refine ⟨Traffic.step_sound h.sound m, ?_⟩
  rw [shows.traffic]
  exact h.ledger.of_same (outcome.namespaces h.sound other)

theorem hold (h : Books t (s :: rest)) (free : s.held = none) {s' : Segmenter} {name : Name}
    (held : s'.held = some name) (config : s'.config = s.config) :
    Books (t.step (.addNamespace name)).traffic (s' :: rest) :=
  ⟨Traffic.step_sound h.sound _, h.ledger.hold free held config⟩

theorem release (h : Books t (s :: rest)) {name : Name} (held : s.held = some name)
    {s' : Segmenter} (free : s'.held = none) (config : s'.config = s.config) :
    Books (t.step (.removeNamespace name)).traffic (s' :: rest) :=
  ⟨Traffic.step_sound h.sound _, h.ledger.release held free config⟩

theorem enter (h : Books t (s :: rest)) (root : Name) :
    Books (t.run ((s.enter root).2.map Segmenter.Holding.move)) ((s.enter root).1 :: rest) := by
  by_cases same : s.held = some root
  · have nothing : (s.enter root).2 = [] := by rw [Segmenter.enter, if_pos same]
    rw [nothing]
    exact ⟨h.sound, h.ledger.replace same.symm (h.ledger.positive s List.mem_cons_self)⟩
  · have moves : (s.enter root).2 = (s.held.map .release).toList ++ [.hold root] := by
      rw [Segmenter.enter, if_neg same]
    rw [moves]
    cases held : s.held with
    | none => exact h.hold held rfl rfl
    | some old =>
      have between : Books (t.step (.removeNamespace old)).traffic ({ s with held := none } :: rest) :=
        h.release held rfl rfl
      exact between.hold rfl rfl rfl

theorem letGo (h : Books t (s :: rest)) :
    Books (t.run (s.letGo.2.map Segmenter.Holding.move)) (s.letGo.1 :: rest) := by
  rw [Segmenter.letGo]
  cases held : s.held with
  | none => exact ⟨h.sound, h.ledger.replace held.symm (h.ledger.positive s List.mem_cons_self)⟩
  | some name => exact h.release held rfl rfl

theorem drop (h : Books t (s :: rest)) :
    Books (t.run (s.letGo.2.map Segmenter.Holding.move)) rest :=
  ⟨h.letGo.sound, ((Ledger.cons_iff rfl).mp h.letGo.ledger).1⟩

theorem complete (h : Books t (s :: rest)) (w : Segmenter.Writing) :
    Books (t.run ((s.complete w).2.map Segmenter.Holding.move)) ((s.complete w).1 :: rest) := by
  have numbered : Books t ({ s with next := w.next } :: rest) :=
    ⟨h.sound, h.ledger.replace rfl (h.ledger.positive s List.mem_cons_self)⟩
  rw [Segmenter.complete]
  split
  · exact numbered.letGo
  · exact numbered

end Books

end NamedContent
