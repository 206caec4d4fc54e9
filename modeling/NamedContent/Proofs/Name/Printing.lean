import Mathlib
import NamedContent.Proofs.Name.Grammar

/-!
# Names as they are written

The text of a component spells its bytes and has no slash, so the reader finds
the components of a name between the slashes of its text. It passes over those
without bytes, as over any empty segment, and reads none from anywhere. So a
name is read back exactly if all its components have bytes, and these are the
names that texts are read as.
-/

set_option autoImplicit false

namespace NamedContent

theorem isHexDigit_hexDigit {value : Nat} (below : value < 16) :
    IsHexDigit (hexDigit true value) value := by
  have table : ∀ value < 16, IsHexDigit (hexDigit true value) value := by decide
  exact table value below

namespace Uri

theorem plain_char {b : UInt8} (plain : isPlain b = true) :
    String.utf8EncodeChar (Char.ofNat b.toNat) = [b] ∧ Char.ofNat b.toNat ≠ '%' ∧
      Char.ofNat b.toNat ≠ '/' := by
  have table : ∀ n < 256, isPlain (UInt8.ofNat n) = true →
      String.utf8EncodeChar (Char.ofNat n) = [UInt8.ofNat n] ∧ Char.ofNat n ≠ '%' ∧
        Char.ofNat n ≠ '/' := by
    decide +kernel
  have here := table b.toNat b.toNat_lt
  rw [UInt8.ofNat_toNat] at here
  exact here plain

theorem escapeByte_spells {b : UInt8} {rest : List Char} {bytes : Bytes}
    (later : Spells false rest bytes) : Spells false (escapeByte b ++ rest) (b :: bytes) := by
  by_cases plain : isPlain b = true
  · obtain ⟨itself, other, -⟩ := plain_char plain
    rw [escapeByte, if_pos plain, ← List.singleton_append (l := bytes), ← itself]
    exact .plain other later
  · have high : b.toNat / 16 < 16 := by
      have := b.toNat_lt
      omega
    have low : b.toNat % 16 < 16 := Nat.mod_lt _ (by decide)
    have spelt := Spells.escape (isHexDigit_hexDigit high) (isHexDigit_hexDigit low) later
    rw [Nat.div_add_mod, UInt8.ofNat_toNat] at spelt
    rw [escapeByte, if_neg plain]
    exact spelt

theorem writeComponent_spells (c : Component) : Spells false (writeComponent c) c.bytes := by
  obtain ⟨bytes⟩ := c
  show Spells false (bytes.flatMap escapeByte) bytes
  induction bytes with
  | nil => exact .nil
  | cons b bytes ih => exact escapeByte_spells ih

theorem slash_notMem_escapeByte (b : UInt8) : '/' ∉ escapeByte b := by
  have digit {value : Nat} (below : value < 16) : hexDigit true value ≠ '/' := by
    have table : ∀ value < 16, hexDigit true value ≠ '/' := by decide
    exact table value below
  by_cases plain : isPlain b = true
  · rw [escapeByte, if_pos plain, List.mem_singleton]
    exact (plain_char plain).2.2.symm
  · have high : b.toNat / 16 < 16 := by
      have := b.toNat_lt
      omega
    have low : b.toNat % 16 < 16 := Nat.mod_lt _ (by decide)
    rw [escapeByte, if_neg plain]
    simp [(digit high).symm, (digit low).symm]

theorem slash_notMem_writeComponent (c : Component) : '/' ∉ writeComponent c := by
  intro inside
  obtain ⟨b, -, inside⟩ := List.mem_flatMap.mp inside
  exact slash_notMem_escapeByte b inside

theorem Spells.eq_nil_iff {signs : Bool} {segment : List Char} {bytes : Bytes}
    (spelt : Spells signs segment bytes) : segment = [] ↔ bytes = [] := by
  cases spelt with
  | nil => simp
  | escape => simp
  | signed => simp
  | @plain c rest bytes =>
    have some : String.utf8EncodeChar c ≠ [] := by
      rw [← List.length_pos_iff, String.length_utf8EncodeChar]
      exact c.utf8Size_pos
    simp [some]

theorem writeComponent_eq_nil_iff (c : Component) : writeComponent c = [] ↔ c.isEmpty = true := by
  rw [(writeComponent_spells c).eq_nil_iff, Component.isEmpty, List.isEmpty_iff]

def readable (n : Name) : Name := ⟨n.components.filter fun c => !c.isEmpty⟩

theorem readable_eq_self_iff (n : Name) :
    readable n = n ↔ ∀ c ∈ n.components, c.isEmpty = false := by
  obtain ⟨components⟩ := n
  simp [readable, List.filter_eq_self]

theorem write_rooted (n : Name) : ['/'] <+: write n := by
  obtain ⟨components⟩ := n
  cases components with
  | nil => exact List.prefix_refl _
  | cons c rest => exact ⟨_, rfl⟩

theorem path_uri (n : Name) : path n.uri = write n := by
  have rootless : ¬"ccnx:".toList <+: write n := by
    obtain ⟨rest, rooted⟩ := write_rooted n
    rw [← rooted]
    rintro ⟨_, scheme⟩
    exact absurd (List.cons.inj scheme).1 (by decide)
  have text : n.uri.toList = write n := String.toList_ofList
  rw [path, text, if_neg rootless]

theorem intercalate_slash (first : List Char) (rest : List (List Char)) :
    ['/'].intercalate (first :: rest) = first ++ rest.flatMap ('/' :: ·) := by
  induction rest generalizing first with
  | nil => simp
  | cons second rest ih =>
    rw [List.intercalate_cons_cons, ih, List.append_assoc]
    rfl

theorem splitOn_write (n : Name) : ((write n).splitOn '/').filter (· ≠ []) =
    (n.components.map writeComponent).filter (· ≠ []) := by
  obtain ⟨components⟩ := n
  cases components with
  | nil => decide
  | cons c rest =>
    have joined : write ⟨c :: rest⟩ = ['/'].intercalate ([] :: (c :: rest).map writeComponent) := by
      rw [intercalate_slash, List.flatMap_map]
      rfl
    rw [joined, List.splitOn_intercalate]
    · exact List.filter_cons_of_neg (by simp)
    · intro segment listed
      rcases List.mem_cons.mp listed with rfl | listed
      · exact List.not_mem_nil
      · obtain ⟨c, -, rfl⟩ := List.mem_map.mp listed
        exact slash_notMem_writeComponent c
    · exact List.cons_ne_nil _ _

/-- The text of a name writes its components that have bytes, without any signs. -/
theorem writes_uri (n : Name) : Writes false n.uri (readable n) := by
  refine ⟨?_, ?_⟩
  · rw [path_uri]
    exact write_rooted n
  · have kept : (n.components.map writeComponent).filter (· ≠ []) =
        (readable n).components.map writeComponent := by
      rw [List.filter_map]
      congr 1
      apply List.filter_congr
      intro c _
      rw [Function.comp_apply, Bool.eq_iff_iff, decide_eq_true_iff, Ne, writeComponent_eq_nil_iff,
        Bool.not_eq_true, Bool.not_eq_true']
    rw [path_uri, splitOn_write, kept, List.forall₂_map_left_iff]
    exact List.forall₂_same.mpr fun c _ => writeComponent_spells c

theorem read_uri (n : Name) : read n.uri = .ok (readable n) :=
  read_eq_ok.mpr (writes_false_iff.mp (writes_uri n)).2

theorem filled_of_spells {signs : Bool} {segments : List (List Char)}
    {components : List Component}
    (spelled : List.Forall₂ (fun segment c => Spells signs segment c.bytes) segments components)
    (filled : ∀ segment ∈ segments, segment ≠ []) : ∀ c ∈ components, c.isEmpty = false := by
  induction spelled with
  | nil => simp
  | @cons segment c _ _ spelt _ ih =>
    rw [List.forall_mem_cons] at filled ⊢
    refine ⟨?_, ih filled.2⟩
    rw [Component.isEmpty, Bool.eq_false_iff, Ne, List.isEmpty_iff, ← spelt.eq_nil_iff]
    exact filled.1

theorem filled_of_read {text : String} {n : Name} (done : read text = .ok n) :
    ∀ c ∈ n.components, c.isEmpty = false :=
  filled_of_spells (read_eq_ok.mp done).spelled fun _ listed =>
    of_decide_eq_true (List.mem_filter.mp listed).2

/-- A name is read back from its text exactly if all its components have bytes.
Every name that a text is read as is of this kind, and no two of them have one text. -/
theorem read_uri_eq_ok_iff :
    (∀ n : Name, read n.uri = .ok n ↔ ∀ c ∈ n.components, c.isEmpty = false) ∧
    (∀ text n, read text = .ok n →
      (∀ c ∈ n.components, c.isEmpty = false) ∧ read n.uri = .ok n) ∧
    ∀ text text' n n', read text = .ok n → read text' = .ok n' → n.uri = n'.uri → n = n' := by
  have back (n : Name) : read n.uri = .ok n ↔ ∀ c ∈ n.components, c.isEmpty = false := by
    rw [read_uri, Except.ok.injEq, readable_eq_self_iff]
  refine ⟨back, ?_, ?_⟩
  · intro text n done
    exact ⟨filled_of_read done, (back n).mpr (filled_of_read done)⟩
  · intro text text' n n' done done' same
    have first := (back n).mpr (filled_of_read done)
    have second := (back n').mpr (filled_of_read done')
    rw [same, second] at first
    exact (Except.ok.inj first).symm

/-- Bytes of all kinds are read back, whatever text they come from, and an empty component is not. -/
theorem separators_read_back :
    let n : Name := ⟨[⟨[47, 37]⟩, ⟨[0, 200]⟩]⟩
    read "ccnx://%2f%25//%00%c8" = .ok n ∧ n.uri = "/%2F%25/%00%C8" ∧ read n.uri = .ok n ∧
      read (n.append ⟨[]⟩).uri ≠ .ok (n.append ⟨[]⟩) := by
  intro n
  have done : read "ccnx://%2f%25//%00%c8" = .ok n := by decide +kernel
  refine ⟨done, by decide +kernel, (read_uri_eq_ok_iff.2.1 _ n done).2, ?_⟩
  intro back
  have filled := (read_uri_eq_ok_iff.1 (n.append ⟨[]⟩)).mp back ⟨[]⟩ (by decide)
  contradiction

end Uri

end NamedContent
