import Mathlib
import NamedContent.Proofs.Segmenter.Rising
import NamedContent.Proofs.Traffic.Namespaces
import NamedContent.Proofs.Traffic.Undelivered
import NamedContent.Proofs.World.Course

/-!
# What is registered is held

However puts end, and whether segmenters move between streams, are set anew or are
dropped, a namespace is registered just while a segmenter holds it, and as often. A
segmenter holds no more than one, and none after it has ended its stream.
-/

set_option autoImplicit false

namespace NamedContent

namespace Ledger

variable {b : Buffer} {segmenters : List Segmenter}

theorem holders_eq (h : Ledger b segmenters) (name : Name) :
    b.holders name = (segmenters.filterMap Segmenter.held).count name := by
  rw [h.held, List.count, List.countP_filterMap]
  congr 1
  funext s
  cases s.held with
  | none => rfl
  | some held =>
    rw [Option.map_some, Option.getD_some, beq_eq_decide]
    exact decide_eq_decide.mpr Option.some_inj

theorem contains_iff (h : Ledger b segmenters) (counted : b.Counted) (name : Name) :
    b.namespaces.contains name = true ↔ ∃ s ∈ segmenters, s.held = some name := by
  rw [counted.contains_iff, h.holders_eq, List.count_pos_iff, List.mem_filterMap]

theorem sum_values (h : Ledger b segmenters) (counted : b.Counted) :
    b.namespaces.values.sum = segmenters.countP fun s => s.held.isSome := by
  have registered : b.namespaces.keys.Perm (segmenters.filterMap Segmenter.held).dedup := by
    have distinct : b.namespaces.keys.Nodup := b.namespaces.keys_nodup
    refine (List.perm_ext_iff_of_nodup distinct (List.nodup_dedup _)).mpr fun name => ?_
    have listed : name ∈ b.namespaces.keys ↔ b.namespaces.contains name = true := by
      rw [Table.contains_iff, Table.keys, List.mem_map]
      simp
    rw [listed, h.contains_iff counted, List.mem_dedup, List.mem_filterMap]
  calc b.namespaces.values.sum
      = (b.namespaces.keys.map b.holders).sum := b.sum_values
    _ = (b.namespaces.keys.map fun name => (segmenters.filterMap Segmenter.held).count name).sum :=
        congrArg List.sum (List.map_congr_left fun name _ => h.holders_eq name)
    _ = ((segmenters.filterMap Segmenter.held).dedup.map fun name =>
          (segmenters.filterMap Segmenter.held).count name).sum := (registered.map _).sum_eq
    _ = (segmenters.filterMap Segmenter.held).length := List.sum_map_count_dedup_eq_length _
    _ = segmenters.countP fun s => s.held.isSome := List.length_filterMap_eq_countP

end Ledger

namespace Segmenter

variable {s s' : Segmenter} {keys : KeyRing} {timestamp : Int64} {name : Name} {content : Bytes}
  {options : Options}

theorem completed?_final (final : options.isFinal = true)
    (arrives : s.completed? keys timestamp name content options = some s') : s'.held = none := by
  rw [completed?] at arrives
  split at arrives
  · rename_i entered holdings writing planned
    obtain ⟨data, key, -, -, -, -, prepares⟩ := plan_eq_ok planned
    obtain rfl := Option.some.inj arrives
    rw [complete, if_pos ((prepare_eq_ok prepares.symm).isFinal.trans final)]
    rfl
  · contradiction

end Segmenter

namespace World

/-- As long as segmenters alone register namespaces and release them, after all acts,
whatever becomes of the puts, each namespace has as many holders in the buffer as there
are segmenters that hold it, and is registered just while there is one; each segmenter
counts once at most; when there are no segmenters there is no namespace. A put that ends
a stream, and ends well, gives back a segmenter that holds nothing. -/
theorem namespaces_accounted (config : Buffer.Config) (key : Ed25519.SigningKey)
    (acts : List Act) (unscoped : ∀ a ∈ acts, a.scopes = false) :
    let w := lived config key acts
    (∀ name, w.buffer.holders name = w.holders.countP fun s => s.held = some name) ∧
    (∀ name, w.buffer.namespaces.contains name = true ↔ ∃ s ∈ w.holders, s.held = some name) ∧
    w.buffer.namespaces.values.sum = (w.holders.countP fun s => s.held.isSome) ∧
    (w.holders = [] → w.buffer.namespaces.toList = []) ∧
    ∀ n id name content options time answer s,
      acts[n]? = some (.event (.write id name content options)) → options.isFinal = true →
      (n, time, .ok answer) ∈ w.ended → (n, .segmenter id s) ∈ w.returned → s.held = none := by
  intro w
  have books : w.Kept [] := lived_kept config key unscoped
  have ledger : Ledger w.buffer w.holders := books.ledger
  have counted : w.buffer.Counted := by
    obtain ⟨ms, traffic⟩ := lived_traffic config key acts
    rw [World.buffer, traffic]
    exact Traffic.run_counted config ms
  refine ⟨ledger.held, ledger.contains_iff counted, ledger.sum_values counted, fun none => ?_, ?_⟩
  · rw [List.eq_nil_iff_forall_not_mem]
    rintro ⟨name, count⟩ listed
    obtain ⟨s, mem, -⟩ :=
      (ledger.contains_iff counted name).mp (Table.contains_iff.mpr ⟨count, listed⟩)
    rw [none] at mem
    contradiction
  · intro n id name content options time answer s begun final ended returned
    obtain ⟨inside, here⟩ := List.getElem?_eq_some_iff.mp begun
    obtain ⟨before, after, rfl, rfl⟩ : ∃ before after,
        acts = before ++ .event (.write id name content options) :: after ∧ before.length = n := by
      refine ⟨acts.take n, acts.drop (n + 1), ?_, List.length_take_of_le inside.le⟩
      rw [← here, ← List.drop_eq_getElem_cons, List.take_append_drop]
    obtain ⟨_, _, -, arrives, same⟩ := lived_arrived ended returned
    obtain ⟨-, rfl⟩ := Loan.segmenter.inj same
    exact Segmenter.completed?_final final arrives

def sharedStream : List Act :=
  [.event (.newSegmenter "a" { blockSize := 1 }), .event (.newSegmenter "b" { blockSize := 1 }),
    .event (.write "a" ⟨[⟨[97]⟩]⟩ [1] {}),
    .event (.write "b" ⟨[⟨[97]⟩]⟩ [2] { isFinal := true })]

/-- The first segmenter goes on to hold the root, and the second holds nothing. -/
theorem namespaces_accounted_shared :
    let w := lived {} Segmenter.exampleKey sharedStream
    w.holders.length = 2 ∧ w.buffer.holders ⟨[⟨[97]⟩]⟩ = 1 ∧ w.buffer.namespaces.values.sum = 1 ∧
      ∃ s, (3, .segmenter "b" s) ∈ w.returned ∧ s.held = none := by
  intro w
  obtain ⟨held, -, total, -, final⟩ :=
    namespaces_accounted {} Segmenter.exampleKey sharedStream (by decide)
  have run : w.holders.length = 2 ∧
      (w.holders.countP fun s => s.held = some ⟨[⟨[97]⟩]⟩) = 1 ∧
      (w.holders.countP fun s => s.held.isSome) = 1 ∧
      (∃ x ∈ w.ended, x.1 = 3 ∧ x.2.2.isOk = true) ∧
      (3, .segmenter "b" ⟨{ blockSize := 1 }, 1, some ⟨[⟨[97]⟩]⟩, none⟩) ∈ w.returned := by
    decide +kernel
  obtain ⟨two, one, once, ⟨⟨_, time, outcome⟩, ended, rfl, ok⟩, returned⟩ := run
  cases outcome with
  | error => cases ok
  | ok answer =>
    have free := final 3 "b" ⟨[⟨[97]⟩]⟩ [2] { isFinal := true } time answer _ rfl rfl ended returned
    exact ⟨two, (held _).trans one, total.trans once, _, returned, free⟩

end World

end NamedContent
