import Mathlib
import NamedContent.Proofs.Buffer.Space

/-!
# Changes without deliveries

Most operations neither file nor deliver a block. They may drop entries, and
then they speak of room, but for the sweep of a put that finds none.
-/

set_option autoImplicit false

namespace NamedContent.Buffer

/-- A change that neither files nor delivers a block. Unless it speaks of room
it drops no entry but in a sweep. -/
structure Calm (b b' : Buffer) (ns : List Notice) : Prop where
  unhanded : ∀ id block, .handed id block ∉ ns
  order : b'.nextOrder = b.nextOrder
  entries : ∀ x ∈ b'.entries.toList, x ∈ b.entries.toList
  pending : ∀ w ∈ b'.pending, w ∈ b.pending ∨ w.id = b.nextId
  stays : .space ∉ ns → b'.capacity = b.capacity ∧
    (b'.entries = b.entries ∨ b.bestEffort = true ∧ b'.entries = b.sweep.entries)

theorem Calm.of_same {b b' : Buffer} (order : b'.nextOrder = b.nextOrder)
    (entries : b'.entries = b.entries) (pending : b'.pending = b.pending)
    (capacity : b'.capacity = b.capacity) : b.Calm b' [] :=
  ⟨by simp, order, fun _ hx => entries ▸ hx, fun _ hw => .inl (pending ▸ hw),
    fun _ => ⟨capacity, .inl entries⟩⟩

theorem Calm.of_space {b b' : Buffer} {ns : List Notice}
    (unhanded : ∀ id block, .handed id block ∉ ns) (told : .space ∈ ns)
    (order : b'.nextOrder = b.nextOrder) (entries : ∀ x ∈ b'.entries.toList, x ∈ b.entries.toList)
    (pending : ∀ w ∈ b'.pending, w ∈ b.pending) : b.Calm b' ns :=
  ⟨unhanded, order, entries, fun w hw => .inl (pending w hw), fun quiet => absurd told quiet⟩

theorem Calm.refl (b : Buffer) : b.Calm b [] := .of_same rfl rfl rfl rfl

theorem enroll_calm (b : Buffer) (interest : Interest) (demand : Demand) :
    b.Calm (b.enroll interest demand) [] where
  unhanded := by simp
  order := rfl
  entries := fun _ hx => hx
  pending := by
    intro w hw
    rcases List.mem_append.mp hw with old | new
    · exact .inl old
    · exact .inr (congrArg Waiter.id (List.mem_singleton.mp new))
  stays := fun _ => ⟨rfl, .inl rfl⟩

theorem Calm.forget {b b' : Buffer} {ns : List Notice} (h : b.Calm b' ns) (id : Nat) :
    b.Calm (b'.forget id) ns where
  unhanded := h.unhanded
  order := (forget_sameStore b' id).nextOrder.trans h.order
  entries := fun x hx => h.entries x (forget_entries b' id ▸ hx)
  pending := fun w hw => h.pending w (mem_forget_pending.mp hw).1
  stays := by
    intro quiet
    rw [forget_entries, (forget_sameStore b' id).capacity]
    exact h.stays quiet

theorem makeRoom_calm (b : Buffer) (name : Name) : b.Calm (b.makeRoom name) [] where
  unhanded := by simp
  order := makeRoom_nextOrder b name
  entries := fun _ hx => mem_of_makeRoom hx
  pending := fun _ hw => .inl (makeRoom_pending b name ▸ hw)
  stays := by
    intro _
    refine ⟨makeRoom_capacity b name, ?_⟩
    obtain same | ⟨-, mode, swept⟩ := b.makeRoom_cases name
    · exact .inl (by rw [same])
    · exact .inr ⟨mode, by rw [swept]⟩

theorem shut_calm (b : Buffer) {ns : List Notice} (unhanded : ∀ id block, .handed id block ∉ ns)
    (told : .space ∈ ns) : b.Calm b.shut ns :=
  .of_space unhanded told rfl (by simp [shut, Table.empty]) (by simp [shut])

theorem shutNotices_unhanded (b : Buffer) : ∀ id block, .handed id block ∉ b.shutNotices := by
  simp [shutNotices, removalNotices]

theorem shutNotices_space (b : Buffer) : .space ∈ b.shutNotices := by
  simp [shutNotices, removalNotices]

theorem close_calm (b : Buffer) : b.Calm b.beginDrain.shut (.space :: b.shutNotices) := by
  apply b.shut_calm
  · intro id block told
    obtain other | told := List.mem_cons.mp told
    · contradiction
    · exact b.shutNotices_unhanded id block told
  · exact List.mem_cons_self

theorem subscribe?_calm {b b' : Buffer} {interest : Interest} {limit : Option Nat}
    (opened : b.subscribe? interest limit = some b') : b.Calm b' [] := by
  obtain ⟨-, rfl⟩ := subscribe?_eq_some opened
  obtain ⟨unhanded, order, entries, pending, stays⟩ := b.enroll_calm interest (.standing limit 0)
  exact ⟨unhanded, order, entries, pending, stays⟩

theorem readFeed_calm (b : Buffer) (id : Nat) : b.Calm (b.readFeed id).1 [] := by
  obtain ⟨feeds, eq⟩ := b.readFeed_eq id
  rw [eq]
  exact .of_same rfl rfl rfl rfl

theorem removeNamespace_calm (b : Buffer) (name : Name) : b.Calm (b.removeNamespace name).1 [] := by
  obtain ⟨namespaces, eq⟩ := b.removeNamespace_eq name
  rw [eq]
  exact .of_same rfl rfl rfl rfl

theorem dropFeed_calm (b : Buffer) (id : Nat) : b.Calm (b.dropFeed id) [] := by
  obtain ⟨unhanded, order, entries, pending, stays⟩ := (Calm.refl b).forget id
  exact ⟨unhanded, order, entries, pending, stays⟩

theorem remove?_calm {b b' : Buffer} {name : Name} {block : Block}
    (found : b.remove? name = some (block, b')) : b.Calm b' removalNotices := by
  obtain rfl := remove?_eq_some found
  exact .of_space (by simp [removalNotices]) List.mem_cons_self rfl
    (fun _ hx => List.mem_of_mem_filter hx) fun _ hw => hw

theorem clear_calm (b : Buffer) : b.Calm b.clear removalNotices :=
  .of_space (by simp [removalNotices]) List.mem_cons_self rfl (by simp [clear, Table.empty])
    fun _ hw => hw

end NamedContent.Buffer
