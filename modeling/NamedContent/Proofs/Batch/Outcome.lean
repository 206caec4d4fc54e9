import Mathlib
import NamedContent.Proofs.Batch
import NamedContent.Proofs.HashTree.Ascent

/-!
# How the signing of a batch comes out

Every leaf of a tree has a witness, and every witness leads to the root. So a
batch fails for want of drafts or because the signer fails, and for nothing
else; and one that checks itself differs only in that it turns away a
signature that does not verify under the key the signer offers. Nothing is
assumed of the signer.
-/

set_option autoImplicit false

namespace NamedContent

theorem mapM_eq_ok_map {ε α β : Type} {f : α → Except ε β} {g : α → β} {l : List α}
    (total : ∀ a ∈ l, f a = .ok (g a)) : l.mapM f = .ok (l.map g) := by
  rw [mapM_eq_ok, List.forall₂_map_right_iff, List.forall₂_same]
  exact total

namespace Batch

variable {check : Bool} {drafts : List Draft} {info : SignedInfo} {signer : RootSigner}
  {tree : HashTree}

def tree? (drafts : List Draft) (info : SignedInfo) : Option HashTree :=
  HashTree.ofLeaves? (drafts.map fun d => d.leaf info)

theorem tree?_eq_none : tree? drafts info = none ↔ drafts = [] := by
  cases drafts <;> simp [tree?, HashTree.ofLeaves?]

theorem ne_nil_of_tree? (planted : tree? drafts info = some tree) : drafts ≠ [] := fun empty =>
  absurd (planted.symm.trans (tree?_eq_none.mpr empty)) (Option.some_ne_none tree)

theorem leaf_of_tree? (planted : tree? drafts info = some tree) {index : Nat} {draft : Draft}
    (here : drafts[index]? = some draft) : tree.leaves[index]? = some (draft.leaf info) := by
  rw [HashTree.leaves_of_ofLeaves planted, List.getElem?_map, here]
  rfl

theorem leafCount_of_tree? (planted : tree? drafts info = some tree) :
    tree.leafCount = drafts.length := by
  rw [HashTree.leafCount, HashTree.leaves_of_ofLeaves planted, List.length_map]

/-- The blocks of the drafts, each with the signature and its own witness. -/
def stamped (tree : HashTree) (info : SignedInfo) (signature : Bytes) (drafts : List Draft) :
    List Block :=
  drafts.zipIdx.map fun d => d.1.signed info ⟨signature, tree.own d.2⟩

theorem stamp_eq (planted : tree? drafts info = some tree)
    (small : check = true → drafts.length < UInt64.size) (signature : Bytes) {index : Nat}
    {draft : Draft} (here : drafts[index]? = some draft) :
    stamp check tree info signature draft index =
      .ok (draft.signed info ⟨signature, tree.own index⟩) := by
  have leaf := leaf_of_tree? planted here
  rw [stamp, HashTree.witness?_own (List.getElem?_eq_some_iff.mp leaf).1]
  cases check with
  | false => rfl
  | true =>
    have reached := HashTree.own_reaches (leafCount_of_tree? planted ▸ small rfl) leaf
    simp [reached]

theorem mapM_stamp (planted : tree? drafts info = some tree)
    (small : check = true → drafts.length < UInt64.size) (signature : Bytes) :
    (drafts.zipIdx.mapM fun (draft, index) => stamp check tree info signature draft index) =
      .ok (stamped tree info signature drafts) := by
  refine mapM_eq_ok_map fun d mem => ?_
  exact stamp_eq planted small signature (List.mem_zipIdx_iff_getElem?.mp mem)

theorem sign_nil : sign check [] info signer = .error (.invalidArgument .emptyBatch) := rfl

/-- The signer decides on the batch, and after it the check of the signature. -/
theorem sign_eq (planted : tree? drafts info = some tree)
    (small : check = true → drafts.length < UInt64.size) :
    sign check drafts info signer = do
      let signature ← signer.sign tree.root
      if check then checkSignature signer.verifyingKey tree.root signature
      return ⟨tree.root, signature, stamped tree info signature drafts⟩ := by
  rw [tree?] at planted
  simp only [sign, planted, mapM_stamp planted small]
  rfl

/-- What a batch that checks itself asks of the signature: if the signer offers
a key, it is sixty-four bytes long and verifies under that key. -/
def Acceptable (signer : RootSigner) (root : Digest) (signature : Bytes) : Prop :=
  ∀ key, signer.verifyingKey = some key →
    signature.length = 64 ∧ key.verify root.bytes signature = .ok ()

theorem length_of_verify {key : Ed25519.VerifyingKey} {message signature : Bytes}
    (verified : key.verify message signature = .ok ()) : signature.length = 64 := by
  rw [Ed25519.VerifyingKey.verify] at verified
  by_contra wrong
  simp [wrong] at verified

theorem acceptable_iff {root : Digest} {signature : Bytes} : Acceptable signer root signature ↔
    checkSignature signer.verifyingKey root signature = .ok () := by
  rw [checkSignature_eq_ok]
  exact forall₂_congr fun key _ => ⟨And.right, fun good => ⟨length_of_verify good, good⟩⟩

theorem checkSignature_of_not_acceptable {root : Digest} {signature : Bytes}
    (bad : ¬Acceptable signer root signature) : ∃ fault,
    checkSignature signer.verifyingKey root signature =
      .error (.signingFailure (.signature fault)) := by
  cases checked : checkSignature signer.verifyingKey root signature with
  | ok => exact absurd (acceptable_iff.mpr checked) bad
  | error error =>
    obtain ⟨fault, rfl⟩ := checkSignature_eq_error checked
    exact ⟨fault, rfl⟩

theorem sign_unchecked (planted : tree? drafts info = some tree) :
    sign false drafts info signer = (signer.sign tree.root).map fun signature =>
      ⟨tree.root, signature, stamped tree info signature drafts⟩ := by
  rw [sign_eq planted fun checks => absurd checks Bool.false_ne_true]
  cases signer.sign tree.root <;> rfl

theorem sign_unchecked_eq_ok {batch : Batch} : sign false drafts info signer = .ok batch ↔
    ∃ tree signature, tree? drafts info = some tree ∧ signer.sign tree.root = .ok signature ∧
      batch = ⟨tree.root, signature, stamped tree info signature drafts⟩ := by
  cases planted : tree? drafts info with
  | none =>
    obtain rfl := tree?_eq_none.mp planted
    simp [sign_nil]
  | some tree =>
    rw [sign_unchecked planted]
    cases signed : signer.sign tree.root with
    | error error => simp [Except.map, signed]
    | ok signature => simp [Except.map, signed, eq_comm]

theorem sign_unchecked_eq_error {error : PublishError} :
    sign false drafts info signer = .error error ↔
      drafts = [] ∧ error = .invalidArgument .emptyBatch ∨
      ∃ tree, tree? drafts info = some tree ∧ signer.sign tree.root = .error error := by
  cases planted : tree? drafts info with
  | none =>
    obtain rfl := tree?_eq_none.mp planted
    simp [sign_nil, eq_comm]
  | some tree =>
    rw [sign_unchecked planted]
    cases signed : signer.sign tree.root <;> simp [Except.map, signed, ne_nil_of_tree? planted]

theorem sign_checked (small : drafts.length < UInt64.size) : sign true drafts info signer = do
    let batch ← sign false drafts info signer
    checkSignature signer.verifyingKey batch.root batch.rootSignature
    return batch := by
  cases planted : tree? drafts info with
  | none =>
    obtain rfl := tree?_eq_none.mp planted
    rfl
  | some tree =>
    rw [sign_unchecked planted, sign_eq planted fun _ => small]
    cases signer.sign tree.root <;> rfl

/-- Without its check a batch comes back exactly if there are drafts and the
signer signs the root, and fails otherwise for want of drafts or as the signer
does: each draft has a witness, and it leads to the root. With the check the
same batch comes back if the signature is acceptable; if it is not, signing
fails for the signature, and all other failures are those without the check.
A batch is in memory, so that its length is a word. -/
theorem selfCheck_filters (drafts : List Draft) (info : SignedInfo) (signer : RootSigner) :
    ((∃ batch, sign false drafts info signer = .ok batch) ↔
      drafts ≠ [] ∧ ∃ tree signature, tree? drafts info = some tree ∧
        signer.sign tree.root = .ok signature) ∧
    (∀ error, sign false drafts info signer = .error error ↔
      drafts = [] ∧ error = .invalidArgument .emptyBatch ∨
      ∃ tree, tree? drafts info = some tree ∧ signer.sign tree.root = .error error) ∧
    (∀ tree, tree? drafts info = some tree →
      ∀ index (draft : Draft), drafts[index]? = some draft →
        ∃ witness, tree.witness? index = some witness ∧ (drafts.length < UInt64.size →
          witness.root? (draft.leaf info) = some tree.root)) ∧
    (drafts.length < UInt64.size →
      (∀ batch, sign false drafts info signer = .ok batch →
        (Acceptable signer batch.root batch.rootSignature →
          sign true drafts info signer = .ok batch) ∧
        (¬Acceptable signer batch.root batch.rootSignature → ∃ fault,
          sign true drafts info signer = .error (.signingFailure (.signature fault)))) ∧
      ∀ error, sign false drafts info signer = .error error →
        sign true drafts info signer = .error error) := by
  refine ⟨?_, fun error => sign_unchecked_eq_error, ?_, ?_⟩
  · simp only [sign_unchecked_eq_ok]
    constructor
    · rintro ⟨batch, tree, signature, planted, signed, -⟩
      exact ⟨ne_nil_of_tree? planted, tree, signature, planted, signed⟩
    · rintro ⟨-, tree, signature, planted, signed⟩
      exact ⟨_, tree, signature, planted, signed, rfl⟩
  · intro tree planted index draft here
    have leaf := leaf_of_tree? planted here
    refine ⟨tree.own index, HashTree.witness?_own (List.getElem?_eq_some_iff.mp leaf).1, ?_⟩
    intro small
    exact HashTree.own_reaches (leafCount_of_tree? planted ▸ small) leaf
  · intro small
    rw [sign_checked small]
    refine ⟨?_, ?_⟩
    · intro batch signed
      rw [signed]
      constructor
      · intro good
        exact bind_eq_ok.mpr ⟨batch, rfl, bind_eq_ok.mpr
          ⟨(), acceptable_iff.mp good, rfl⟩⟩
      · intro bad
        obtain ⟨fault, refused⟩ := checkSignature_of_not_acceptable bad
        exact ⟨fault, bind_eq_error.mpr (.inr ⟨batch, rfl, bind_eq_error.mpr (.inl refused)⟩)⟩
    · intro error failed
      exact bind_eq_error.mpr (.inl failed)

/-- A signer that returns three bytes whatever the root: if it offers a key, a
batch of three that checks itself fails for the signature, and if it withholds
the key, the batch comes back as it does without the check. -/
theorem selfCheck_filters_short :
    ∃ (drafts : List Draft) (info : SignedInfo) (offering silent : RootSigner) (batch : Batch),
      drafts.length = 3 ∧ batch.rootSignature = [1, 2, 3] ∧ silent.verifyingKey = none ∧
      sign false drafts info offering = .ok batch ∧
      (∃ fault, sign true drafts info offering = .error (.signingFailure (.signature fault))) ∧
      sign false drafts info silent = .ok batch ∧ sign true drafts info silent = .ok batch := by
  let drafts : List Draft := [⟨⟨[⟨[97]⟩]⟩, 0, [1, 2]⟩, ⟨⟨[⟨[98]⟩]⟩, 1, []⟩, ⟨⟨[⟨[99]⟩]⟩, 2, [3]⟩]
  let info : SignedInfo := ⟨⟨.zero⟩, 0, .data, .keyName ⟨[]⟩, none, none⟩
  let offering : RootSigner := ⟨fun _ => .ok [1, 2, 3], some ⟨1 :: List.replicate 31 0, .neutral⟩⟩
  let silent : RootSigner := ⟨fun _ => .ok [1, 2, 3], none⟩
  have small : drafts.length < UInt64.size := by decide
  obtain ⟨tree, planted⟩ : ∃ tree, tree? drafts info = some tree := ⟨_, rfl⟩
  let batch : Batch := ⟨tree.root, [1, 2, 3], stamped tree info [1, 2, 3] drafts⟩
  have signed : sign false drafts info offering = .ok batch := sign_unchecked planted
  have signed' : sign false drafts info silent = .ok batch := sign_unchecked planted
  obtain ⟨-, -, -, checked⟩ := selfCheck_filters drafts info offering
  obtain ⟨-, -, -, checked'⟩ := selfCheck_filters drafts info silent
  refine ⟨drafts, info, offering, silent, batch, rfl, rfl, rfl, signed, ?_, signed', ?_⟩
  · have short : ([1, 2, 3] : Bytes).length ≠ 64 := by decide
    exact ((checked small).1 batch signed).2 fun good => short (good _ rfl).1
  · exact ((checked' small).1 batch signed').1 nofun

end Batch

end NamedContent
