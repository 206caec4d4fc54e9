import Mathlib
import NamedContent.Proofs.Buffer.Namespaces
import NamedContent.Proofs.Traffic.Callers
import NamedContent.Proofs.Traffic.Watching

/-!
# Namespaces over a run

Whoever adds a namespace holds it until it is removed as often. A removal says
whether there was something to remove, so what is held can be counted from the moves
and their answers: the additions less the removals that succeed.
-/

set_option autoImplicit false

namespace NamedContent.Traffic

variable {κ : Type}

def Move.adds (name : Name) : Move κ → Bool
  | .addNamespace added => added = name
  | _ => false

variable [DecidableEq κ] {t : Traffic κ} {m : Move κ}

/-- Whether the move removes the namespace and is told that it was there. -/
def releases (t : Traffic κ) (name : Name) : Move κ → Bool
  | .removeNamespace removed =>
    removed = name && match (t.step (.removeNamespace removed)).answer with
      | some (.ok (.flag held)) => held
      | _ => false
  | _ => false

def removals (t : Traffic κ) (name : Name) : List (Move κ) → Nat
  | [] => 0
  | m :: rest => (t.releases name m).toNat + (t.step m).traffic.removals name rest

/-- The additions of the namespace less its removals. -/
def netCount (t : Traffic κ) (name : Name) (ms : List (Move κ)) : Int :=
  ms.countP (Move.adds name) - t.removals name ms

theorem step_namespaces (sound : t.Sound)
    (aside : ∀ name, m ≠ .addNamespace name ∧ m ≠ .removeNamespace name) :
    (t.step m).traffic.buffer.namespaces = t.buffer.namespaces := by
  obtain ⟨f, outcome, shows⟩ := t.step_explained m
  rw [shows.traffic]
  exact outcome.namespaces sound aside

theorem step_counted (sound : t.Sound) (h : t.buffer.Counted) (m : Move κ) :
    (t.step m).traffic.buffer.Counted := by
  cases m with
  | addNamespace name => exact h.addNamespace name
  | removeNamespace name => exact h.removeNamespace name
  | _ =>
    rw [Buffer.Counted, step_namespaces sound]
    · exact h
    · simp

theorem run_counted (config : Buffer.Config) (ms : List (Move κ)) :
    ((ofConfig config).run ms).buffer.Counted := by
  induction ms using List.reverseRecOn with
  | nil => exact Buffer.ofConfig_counted config
  | append_singleton ms m ih =>
    rw [run_append]
    exact step_counted (run_sound config ms) ih m

theorem step_holders (sound : t.Sound) (h : t.buffer.Counted) (m : Move κ) (name : Name) :
    (t.step m).traffic.buffer.holders name + (t.releases name m).toNat =
      t.buffer.holders name + (m.adds name).toNat := by
  cases m with
  | addNamespace added =>
    show (t.buffer.addNamespace added).holders name + 0 = _ + (decide (added = name)).toNat
    rw [Buffer.holders_addNamespace]
    by_cases same : name = added
    · simp [same]
    · simp [same, Ne.symm same]
  | removeNamespace removed =>
    show (t.buffer.removeNamespace removed).1.holders name +
      (decide (removed = name) && (t.buffer.removeNamespace removed).2).toNat = _ + 0
    rw [Buffer.holders_removeNamespace, Buffer.removeNamespace_held]
    by_cases same : name = removed
    · subst same
      have held := h.contains_iff name
      rw [if_pos rfl, decide_eq_true (rfl : name = name), Bool.true_and]
      cases there : t.buffer.namespaces.contains name with
      | false =>
        have nobody : ¬0 < t.buffer.holders name := by simpa [there] using held
        show t.buffer.holders name - 1 + 0 = t.buffer.holders name + 0
        omega
      | true =>
        have somebody : 0 < t.buffer.holders name := held.mp there
        exact Nat.sub_add_cancel somebody
    · simp [same, Ne.symm same]
  | _ =>
    rw [Buffer.holders, step_namespaces sound]
    · rfl
    · simp

theorem run_holders (sound : t.Sound) (h : t.buffer.Counted) (ms : List (Move κ)) (name : Name) :
    ((t.run ms).buffer.holders name : Int) = t.buffer.holders name + t.netCount name ms := by
  induction ms generalizing t with
  | nil => simp [run, netCount, removals]
  | cons m rest ih =>
    have first := step_holders sound h m name
    have later := ih (step_sound sound m) (step_counted sound h m)
    have counted : (m :: rest).countP (Move.adds name) =
        rest.countP (Move.adds name) + (m.adds name).toNat := by
      rw [List.countP_cons]
      cases m.adds name <;> rfl
    rw [netCount] at later ⊢
    rw [run, later, removals, counted]
    omega

theorem Puts.invalid_iff {who : κ} {block : Block} {deadline : Nat} {kept : List (κ × Call)}
    (puts : t.Puts m who block deadline kept) (accepting : t.buffer.phase = .accepting)
    (fault : ArgumentFault) :
    (t.step m).answer = some (.error (.invalidArgument fault)) ↔
      fault = .outsideNamespaces block.name ∧ t.buffer.admits block.name = false := by
  rw [puts.step_eq, attemptPut]
  constructor
  · intro answer
    split at answer
    · rename_i error tried
      obtain ⟨closed, -⟩ | ⟨-, outside, rfl⟩ := Buffer.tryInsert_refused_iff.mp tried
      · exact absurd accepting closed
      · cases answer
        exact ⟨rfl, outside⟩
    · cases answer
    · split at answer <;> cases answer
  · rintro ⟨rfl, outside⟩
    have tried : ({ t with calls := kept } : Traffic κ).buffer.tryInsert block = .refused _ :=
      Buffer.tryInsert_refused_iff.mpr (.inr ⟨accepting, outside, rfl⟩)
    rw [tried]
    rfl

/-- A namespace is there while it has been added more often than it was removed: then
removing it succeeds, it is listed, and the names it covers can be put. While there are
namespaces, other names are refused. -/
theorem namespaces_counted (config : Buffer.Config) (ms : List (Move κ)) :
    let t := (ofConfig config).run ms
    let net := fun name => (ofConfig config).netCount name ms
    (∀ name, (t.step (.removeNamespace name)).answer =
      some (.ok (.flag (decide (0 < net name))))) ∧
    t.buffer.namespaces.keys.Pairwise (compare · · = .lt) ∧
    (∀ name, name ∈ t.buffer.namespaces.keys ↔ 0 < net name) ∧
    ∀ m who block deadline kept, t.Puts m who block deadline kept → t.buffer.phase = .accepting →
      ∀ fault, (t.step m).answer = some (.error (.invalidArgument fault)) ↔
        fault = .outsideNamespaces block.name ∧ (∃ name, 0 < net name) ∧
          ∀ name, 0 < net name → name.isPrefixOf block.name = false := by
  intro t net
  have counted : t.buffer.Counted := run_counted config ms
  have positive (name : Name) : 0 < t.buffer.holders name ↔ 0 < net name := by
    have holders : (t.buffer.holders name : Int) = 0 + net name :=
      run_holders (ofConfig_sound config) (Buffer.ofConfig_counted config) ms name
    omega
  refine ⟨fun name => ?_, ?_, fun name => ?_, ?_⟩
  · have held : t.buffer.namespaces.contains name = decide (0 < net name) := by
      rw [Bool.eq_iff_iff, decide_eq_true_iff, counted.contains_iff, positive]
    show some (Except.ok (Answer.flag (t.buffer.removeNamespace name).2)) = _
    rw [Buffer.removeNamespace_held, held]
  · exact List.pairwise_map.mpr t.buffer.namespaces.ascending
  · rw [counted.mem_keys, positive]
  · intro m who block deadline kept puts accepting fault
    rw [puts.invalid_iff accepting, counted.admits_eq_false]
    simp only [positive]

/-- The namespace `/a` is added twice and removed once, and `/a/b` lies below it. -/
def nestedMoves : List (Move Nat) :=
  [.addNamespace ⟨[⟨[97]⟩]⟩, .addNamespace ⟨[⟨[97]⟩, ⟨[98]⟩]⟩, .addNamespace ⟨[⟨[97]⟩]⟩,
    .removeNamespace ⟨[⟨[97]⟩]⟩]

theorem namespaces_counted_nested :
    let t := (ofConfig {}).run nestedMoves
    t.Puts (.put 0 (letterBlock 98)) 0 (letterBlock 98) (t.now + t.buffer.config.putTimeout)
        t.calls ∧
      t.buffer.phase = .accepting ∧
      t.buffer.namespaces.keys = [⟨[⟨[97]⟩]⟩, ⟨[⟨[97]⟩, ⟨[98]⟩]⟩] ∧
      (t.step (.put 0 (letterBlock 98))).answer =
        some (.error (.invalidArgument (.outsideNamespaces (letterBlock 98).name))) := by
  intro t
  have puts : t.Puts (.put 0 (letterBlock 98)) 0 (letterBlock 98) _ _ := .begun (by decide +kernel)
  have accepting : t.buffer.phase = .accepting := by decide +kernel
  have keys : t.buffer.namespaces.keys = [⟨[⟨[97]⟩]⟩, ⟨[⟨[97]⟩, ⟨[98]⟩]⟩] := by decide +kernel
  obtain ⟨-, -, listed, refused⟩ := namespaces_counted {} nestedMoves
  refine ⟨puts, accepting, keys, (refused _ _ _ _ _ puts accepting _).mpr ⟨rfl, ?_, ?_⟩⟩
  · refine ⟨_, (listed ⟨[⟨[97]⟩]⟩).mp ?_⟩
    show _ ∈ t.buffer.namespaces.keys
    rw [keys]
    exact List.mem_cons_self
  · intro name held
    have mem : name ∈ t.buffer.namespaces.keys := (listed name).mpr held
    rw [keys] at mem
    have apart : ∀ name ∈ [(⟨[⟨[97]⟩]⟩ : Name), ⟨[⟨[97]⟩, ⟨[98]⟩]⟩],
        name.isPrefixOf (letterBlock 98).name = false := by decide
    exact apart name mem

end NamedContent.Traffic
