import Mathlib
import NamedContent.Proofs.Table
import NamedContent.Transport.Network

/-!
# Channels and endpoints

An attempt to send puts the item at the end of the channel or leaves its items as they
are. Networks grow: channels stay open once and for all, and endpoints are those of
channels that have been opened.
-/

set_option autoImplicit false

namespace NamedContent

namespace Channel

variable {κ α : Type} [DecidableEq κ] (c : Channel κ α) (who : κ) (item : α)

theorem send_sent (sent : (c.send who item).2 = .sent) :
    (c.send who item).1.items = c.items ++ [item] := by
  rw [send] at sent ⊢
  split at sent
  · cases sent
  · split at sent
    · rw [if_neg ‹_›, if_pos ‹_›]
    · split at sent
      · cases sent
      · split at sent
        · cases sent
        · rw [if_neg ‹_›, if_neg ‹_›, if_neg ‹_›, if_neg ‹_›]

theorem send_unsent (unsent : (c.send who item).2 ≠ .sent) :
    (c.send who item).1.items = c.items := by
  rw [send] at unsent ⊢
  split
  · rfl
  · rw [if_neg ‹_›] at unsent
    split
    · rw [if_pos ‹_›] at unsent
      exact absurd rfl unsent
    · rw [if_neg ‹_›] at unsent
      split
      · rfl
      · rw [if_neg ‹_›] at unsent
        split
        · rfl
        · rw [if_neg ‹_›] at unsent
          exact absurd rfl unsent

end Channel

namespace Network

variable {κ : Type} {n n' n'' : Network κ}

def Placed (n : Network κ) : Prop :=
  ∀ face i, n.faces.find? face = some i → i < n.channels.length

/-- The later network has at least the channels of the other, the stream of interests is
not given back, and endpoints stay placed. -/
structure Extends (n n' : Network κ) : Prop where
  taken : n.taken = true → n'.taken = true
  channels : n.channels.length ≤ n'.channels.length
  placed : n.Placed → n'.Placed

theorem Extends.refl (n : Network κ) : n.Extends n := ⟨id, Nat.le_refl _, id⟩

theorem Extends.trans (h : n.Extends n') (h' : n'.Extends n'') : n.Extends n'' :=
  ⟨h'.taken ∘ h.taken, h.channels.trans h'.channels, h'.placed ∘ h.placed⟩

theorem Extends.untaken (h : n.Extends n') (untaken : n'.taken = false) : n.taken = false :=
  Bool.eq_false_iff.mpr fun taken => by
    rw [h.taken taken] at untaken
    contradiction

theorem extends_interests (n : Network κ) (c : Channel κ (String × Interest)) :
    n.Extends { n with interests := c } := ⟨id, Nat.le_refl _, id⟩

@[simp] theorem setChannel_length (n : Network κ) (i : Nat) (c : Channel κ Block) :
    (n.setChannel i c).channels.length = n.channels.length := List.length_set

theorem extends_setChannel (n : Network κ) (i : Nat) (c : Channel κ Block) :
    n.Extends (n.setChannel i c) where
  taken := id
  channels := (n.setChannel_length i c).ge
  placed := fun placed face j found => by
    rw [setChannel_length]
    exact placed face j found

theorem extends_connect (n : Network κ) (face : String) : n.Extends (n.connect face).1 := by
  -- whether a channel is replaced or not, the new one comes after all others
  have opens {opened : Network κ} (h : n.Extends opened)
      (same : opened.channels.length = n.channels.length) :
      n.Extends { opened with
        faces := opened.faces.insert face n.channels.length
        channels := opened.channels ++ [.empty] } := by
    refine ⟨h.taken, by simp [same], fun placed other i found => ?_⟩
    rw [Table.find?_insert] at found
    rw [List.length_append, List.length_singleton]
    split at found
    · cases found
      omega
    · have before := h.placed placed other i found
      omega
  rw [connect]
  cases n.faces.find? face with
  | none => exact opens (.refl n) rfl
  | some old => exact opens (n.extends_setChannel old _) (n.setChannel_length old _)

theorem extends_disconnect (n : Network κ) (face : String) : n.Extends (n.disconnect face) := by
  rw [disconnect]
  split
  · rename_i i _
    have detached : n.Extends (n.detach i) := n.extends_setChannel i _
    refine ⟨detached.taken, detached.channels, fun placed other j found => ?_⟩
    rw [Table.find?_erase] at found
    split at found
    · contradiction
    · exact (n.setChannel_length i _).symm ▸ placed other j found
  · exact .refl n

/-- The blocks that have come into channels, each with the number of its channel. -/
def arrivals (n n' : Network κ) : List (Nat × Block) :=
  (List.range n'.channels.length).flatMap fun i =>
    ((n'.channel i).items.drop (n.channel i).items.length).map fun block => (i, block)

theorem arrivals_of_items (same : ∀ i, (n'.channel i).items = (n.channel i).items) :
    n.arrivals n' = [] := by
  rw [arrivals, List.flatMap_eq_nil_iff]
  intro i _
  rw [same, List.drop_length]
  rfl

theorem channel_setChannel (n : Network κ) (i j : Nat) (c : Channel κ Block) :
    (n.setChannel i c).channel j = if i = j ∧ i < n.channels.length then c else n.channel j := by
  rw [channel, setChannel, channel, List.getD_eq_getElem?_getD, List.getElem?_set,
    List.getD_eq_getElem?_getD]
  by_cases same : i = j
  · subst same
    by_cases inside : i < n.channels.length
    · rw [if_pos rfl, if_pos inside, if_pos ⟨rfl, inside⟩]
      rfl
    · rw [if_pos rfl, if_neg inside, if_neg (fun h => inside h.2),
        List.getElem?_eq_none (Nat.le_of_not_lt inside)]
  · rw [if_neg same, if_neg (fun h => same h.1)]

theorem arrivals_quiet {i : Nat} {c : Channel κ Block} (same : c.items = (n.channel i).items) :
    n.arrivals (n.setChannel i c) = [] := by
  apply arrivals_of_items
  intro j
  rw [channel_setChannel]
  split
  · rename_i here
    rw [same, here.1]
  · rfl

theorem arrivals_gain {i : Nat} {c : Channel κ Block} {block : Block}
    (inside : i < n.channels.length) (gains : c.items = (n.channel i).items ++ [block]) :
    n.arrivals (n.setChannel i c) = [(i, block)] := by
  obtain ⟨before, after, split⟩ := List.append_of_mem (List.mem_range.mpr inside)
  have distinct : (before ++ i :: after).Nodup := split ▸ List.nodup_range
  have apart : i ∉ before ∧ i ∉ after := by
    rw [List.nodup_middle, List.nodup_cons, List.mem_append, not_or] at distinct
    exact distinct.1
  have others (is : List Nat) (absent : i ∉ is) : (is.flatMap fun j =>
      (((n.setChannel i c).channel j).items.drop (n.channel j).items.length).map
        fun block => (j, block)) = [] := by
    rw [List.flatMap_eq_nil_iff]
    intro j mem
    have other : i ≠ j := fun same => absent (same ▸ mem)
    rw [channel_setChannel, if_neg (fun h => other h.1), List.drop_length]
    rfl
  rw [arrivals, setChannel_length, split, List.flatMap_append, List.flatMap_cons,
    others before apart.1, others after apart.2, channel_setChannel, if_pos ⟨rfl, inside⟩, gains,
    List.drop_left]
  rfl

end Network

end NamedContent
