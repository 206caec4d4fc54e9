import Mathlib
import NamedContent.Batch
import NamedContent.Verify

/-!
# What signing and verifying come to

Signing a batch and verifying a block are sequences of steps that may fail.
If the whole succeeds then each step has, and its results are what the whole
is made of.
-/

set_option autoImplicit false

namespace NamedContent

theorem bind_eq_ok {ε α β : Type} {x : Except ε α} {f : α → Except ε β} {b : β} :
    (x >>= f) = .ok b ↔ ∃ a, x = .ok a ∧ f a = .ok b := by
  cases x with
  | error e => simp [bind, Except.bind]
  | ok a => simp [bind, Except.bind]

theorem bind_eq_error {ε α β : Type} {x : Except ε α} {f : α → Except ε β} {e : ε} :
    (x >>= f) = .error e ↔ x = .error e ∨ ∃ a, x = .ok a ∧ f a = .error e := by
  cases x with
  | error e' => simp [bind, Except.bind]
  | ok a => simp [bind, Except.bind]

theorem mapM_eq_ok {ε α β : Type} {f : α → Except ε β} {l : List α} {bs : List β} :
    l.mapM f = .ok bs ↔ List.Forall₂ (fun a b => f a = .ok b) l bs := by
  induction l generalizing bs with
  | nil =>
    rw [List.forall₂_nil_left_iff]
    exact ⟨fun done => (Except.ok.inj done).symm, fun none => none ▸ rfl⟩
  | cons a rest ih =>
    rw [List.mapM_cons, List.forall₂_cons_left_iff, bind_eq_ok]
    constructor
    · rintro ⟨b, first, done⟩
      obtain ⟨bs', later, done⟩ := bind_eq_ok.mp done
      exact ⟨b, bs', first, ih.mp later, (Except.ok.inj done).symm⟩
    · rintro ⟨b, bs', first, later, rfl⟩
      exact ⟨b, first, bind_eq_ok.mpr ⟨bs', ih.mpr later, rfl⟩⟩

theorem mapM_map {ε α β γ : Type} {f : α → Except ε β} {g : β → γ} {h : α → γ}
    (agree : ∀ a b, f a = .ok b → g b = h a) {l : List α} {bs : List β} (done : l.mapM f = .ok bs) :
    bs.map g = l.map h := by
  have pairs : List.Forall₂ (fun b a => g b = h a) bs l :=
    (mapM_eq_ok.mp done).flip.imp fun b a => agree a b
  rwa [← List.forall₂_eq_eq_eq, List.forall₂_map_left_iff, List.forall₂_map_right_iff]

theorem mapM_error {ε α β : Type} {f : α → Except ε β} {l : List α} {e : ε}
    (failed : l.mapM f = .error e) : ∃ a ∈ l, f a = .error e := by
  induction l with
  | nil => contradiction
  | cons a rest ih =>
    rw [List.mapM_cons] at failed
    obtain first | ⟨b, -, later⟩ := bind_eq_error.mp failed
    · exact ⟨a, List.mem_cons_self, first⟩
    · obtain deeper | ⟨bs, -, done⟩ := bind_eq_error.mp later
      · obtain ⟨a', mem, failed'⟩ := ih deeper
        exact ⟨a', List.mem_cons_of_mem _ mem, failed'⟩
      · contradiction

theorem HashTree.leaves_of_ofLeaves {leaves : List Digest} {t : HashTree}
    (h : HashTree.ofLeaves? leaves = some t) : t.leaves = leaves := by
  rw [HashTree.ofLeaves?] at h
  split at h
  · exact congrArg HashTree.leaves (Option.some.inj h).symm
  · simp at h

theorem Batch.sign_inversion {check : Bool} {drafts : List Draft} {info : SignedInfo}
    {signer : RootSigner} {batch : Batch} (h : sign check drafts info signer = .ok batch) :
    ∃ tree signature blocks, HashTree.ofLeaves? (drafts.map fun d => d.leaf info) = some tree ∧
      signer.sign tree.root = .ok signature ∧
      (drafts.zipIdx.mapM fun d => stamp check tree info signature d.1 d.2) = .ok blocks ∧
      (check = true → checkSignature signer.verifyingKey tree.root signature = .ok ()) ∧
      batch = ⟨tree.root, signature, blocks⟩ := by
  rw [sign] at h
  split at h
  · simp at h
  · rename_i tree hleaves
    obtain ⟨signature, hsign, h⟩ := bind_eq_ok.mp h
    obtain ⟨blocks, hblocks, h⟩ := bind_eq_ok.mp h
    refine ⟨tree, signature, blocks, hleaves, hsign, hblocks, ?_⟩
    cases check with
    | false => exact ⟨by simp, (Except.ok.inj h).symm⟩
    | true =>
      obtain ⟨⟨⟩, hcheck, h⟩ := bind_eq_ok.mp h
      exact ⟨fun _ => hcheck, (Except.ok.inj h).symm⟩

def Block.draft (b : Block) : Draft := ⟨b.name, b.sequence, b.payload⟩

namespace Batch

variable {check : Bool} {drafts : List Draft} {info : SignedInfo} {signer : RootSigner}

theorem stamp_eq_ok {tree : HashTree} {signature : Bytes} {draft : Draft} {index : Nat}
    {block : Block} (stamped : stamp check tree info signature draft index = .ok block) :
    block.draft = draft ∧ block.info = info := by
  rw [stamp] at stamped
  split at stamped
  · contradiction
  · split at stamped
    · contradiction
    · obtain rfl := Except.ok.inj stamped
      exact ⟨rfl, rfl⟩

theorem stamp_eq_error {tree : HashTree} {signature : Bytes} {draft : Draft} {index : Nat}
    {error : PublishError} (failed : stamp check tree info signature draft index = .error error) :
    ∃ fault, error = .signingFailure fault := by
  rw [stamp] at failed
  split at failed
  · exact ⟨_, (Except.error.inj failed).symm⟩
  · split at failed
    · exact ⟨_, (Except.error.inj failed).symm⟩
    · contradiction

theorem checkSignature_eq_ok {key : Option Ed25519.VerifyingKey} {root : Digest}
    {signature : Bytes} : checkSignature key root signature = .ok () ↔
      ∀ k, key = some k → k.verify root.bytes signature = .ok () := by
  cases key with
  | none => exact iff_of_true rfl nofun
  | some key =>
    simp only [Option.some.injEq, forall_eq']
    rw [checkSignature]
    cases key.verify root.bytes signature <;> simp [Except.mapError]

theorem checkSignature_eq_error {key : Option Ed25519.VerifyingKey} {root : Digest}
    {signature : Bytes} {error : PublishError}
    (failed : checkSignature key root signature = .error error) :
    ∃ fault, error = .signingFailure (.signature fault) := by
  cases key with
  | none => contradiction
  | some key =>
    rw [checkSignature] at failed
    cases verified : key.verify root.bytes signature with
    | ok => simp [verified, Except.mapError] at failed
    | error fault =>
      rw [verified] at failed
      exact ⟨_, (Except.error.inj failed).symm⟩

theorem drafts_ne_nil {batch : Batch} (signed : sign check drafts info signer = .ok batch) :
    drafts ≠ [] := by
  obtain ⟨tree, -, -, leaves, -⟩ := sign_inversion signed
  rintro rfl
  contradiction

theorem sign_drafts {batch : Batch} (signed : sign check drafts info signer = .ok batch) :
    batch.blocks.map Block.draft = drafts ∧ ∀ b ∈ batch.blocks, b.info = info := by
  obtain ⟨tree, signature, blocks, -, -, stamped, -, rfl⟩ := sign_inversion signed
  constructor
  · rw [mapM_map (h := Prod.fst) (fun _ _ h => (stamp_eq_ok h).1) stamped]
    simp
  · have infos := mapM_map (h := fun _ => info) (g := Block.info)
      (fun _ _ h => (stamp_eq_ok h).2) stamped
    intro b mem
    have same : b.info ∈ blocks.map Block.info := List.mem_map_of_mem mem
    rw [infos] at same
    obtain ⟨_, -, eq⟩ := List.mem_map.mp same
    exact eq.symm

theorem sign_ofKey_error {key : Ed25519.SigningKey} {error : PublishError} (some : drafts ≠ [])
    (failed : sign check drafts info (.ofKey key) = .error error) :
    ∃ fault, error = .signingFailure fault := by
  rw [sign] at failed
  split at failed
  · rename_i none
    have leaves : drafts.map (fun d => d.leaf info) ≠ [] := by simpa using some
    rw [HashTree.ofLeaves?, dif_pos leaves] at none
    contradiction
  · obtain unsigned | ⟨signature, -, failed⟩ := bind_eq_error.mp failed
    · contradiction
    · obtain unstamped | ⟨blocks, -, failed⟩ := bind_eq_error.mp failed
      · obtain ⟨⟨draft, index⟩, -, failed⟩ := mapM_error unstamped
        exact stamp_eq_error failed
      · cases check with
        | false => contradiction
        | true =>
          obtain unchecked | ⟨_, -, done⟩ := bind_eq_error.mp failed
          · obtain ⟨_, eq⟩ := checkSignature_eq_error unchecked
            exact ⟨_, eq⟩
          · contradiction

theorem signOne_ofKey_error {key : Ed25519.SigningKey} {draft : Draft} {error : PublishError}
    (failed : signOne draft info (.ofKey key) = .error error) :
    ∃ fault, error = .signingFailure fault := by
  obtain unsigned | ⟨batch, -, done⟩ := bind_eq_error.mp failed
  · exact sign_ofKey_error (List.cons_ne_nil _ _) unsigned
  · split at done
    · contradiction
    · exact ⟨_, (Except.error.inj done).symm⟩

theorem signOne_draft {draft : Draft} {block : Block}
    (signed : signOne draft info signer = .ok block) : block.draft = draft ∧ block.info = info := by
  obtain ⟨batch, done, first⟩ := bind_eq_ok.mp signed
  obtain ⟨drafts, infos⟩ := sign_drafts done
  cases blocks : batch.blocks with
  | nil => rw [blocks] at drafts; contradiction
  | cons b rest =>
    rw [blocks] at first drafts infos
    obtain rfl : b = block := Except.ok.inj first
    exact ⟨(List.cons.inj drafts).1, infos b List.mem_cons_self⟩

end Batch

namespace Block

theorem root_eq_ok {b : Block} {root : Digest} : b.root = .ok root ↔
    b.signature.witness.root? (leafDigest b.name b.info b.payload) = some root := by
  rw [Block.root]
  cases b.signature.witness.root? (leafDigest b.name b.info b.payload) with
  | none => simp
  | some reached => simp

theorem verify_inversion {b : Block} {key : Ed25519.VerifyingKey} (h : b.verify key = .ok ()) :
    b.checkSequence = .ok () ∧ ∃ root, b.root = .ok root ∧ b.checkSignature root key = .ok () := by
  obtain ⟨⟨⟩, sequence, h⟩ := bind_eq_ok.mp h
  obtain ⟨root, hroot, signature⟩ := bind_eq_ok.mp h
  exact ⟨sequence, root, hroot, signature⟩

theorem sequence_of_checkSequence {b : Block} (h : b.checkSequence = .ok ()) {n : UInt64}
    (hn : b.name.segmentNumber? = some n) : b.sequence = n := by
  by_contra apart
  simp [checkSequence, hn, Ne.symm apart] at h

end Block

end NamedContent
