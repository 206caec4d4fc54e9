import Mathlib
import NamedContent.Proofs.KeyRing
import NamedContent.Session.Perform

/-!
# Key rings and what has been done to them

A ring is compared with the record of all changes since its first key, each
with what it came to. The publishers in the ring are those that were filed and
not taken out since, and the default publisher is always one of them, however
often it has been switched and keys have come and gone.
-/

set_option autoImplicit false

namespace NamedContent

namespace KeyRing

inductive Change where
  | insert (key : Ed25519.SigningKey)
  | setDefault (publisher : PublisherId)
  | remove (publisher : PublisherId)

inductive Answer where
  | filed (publisher : PublisherId)
  | switched
  | refused (error : PublishError)
  | removed (key : Option Ed25519.SigningKey)

def step (r : KeyRing) : Change → KeyRing × Answer
  | .insert key => (r.insert key, .filed (publisherOf key))
  | .setDefault publisher =>
    match r.setDefault publisher with
    | .ok r' => (r', .switched)
    | .error error => (r, .refused error)
  | .remove publisher => (r.remove publisher, .removed (r.removable? publisher))

def Change.command : Change → Session.Command
  | .insert key => .insertKey key
  | .setDefault publisher => .setDefaultKey publisher
  | .remove publisher => .removeKey publisher

theorem perform_command (w : World) (n : Nat) (c : Change) :
    (Session.perform w n c.command).1.keys = (w.keys.step c).1 := by
  cases c with
  | insert key => rfl
  | remove publisher => rfl
  | setDefault publisher =>
    show (Session.withArgument w (w.keys.setDefault publisher) _).1.keys = _
    rw [step]
    cases w.keys.setDefault publisher <;> rfl

def after (r : KeyRing) (changes : List Change) : KeyRing :=
  changes.foldl (fun r c => (r.step c).1) r

abbrev Entry := Change × Answer

def entries : KeyRing → List Change → List Entry
  | _, [] => []
  | r, c :: rest => (c, (r.step c).2) :: (r.step c).1.entries rest

/-- The record of a ring, which begins with its first key. -/
def record (first : Ed25519.SigningKey) (changes : List Change) : List Entry :=
  (.insert first, .filed (publisherOf first)) :: (ofKey first).entries changes

theorem after_concat (r : KeyRing) (changes : List Change) (c : Change) :
    r.after (changes ++ [c]) = ((r.after changes).step c).1 := by
  rw [after, List.foldl_append]
  rfl

theorem entries_concat (r : KeyRing) (changes : List Change) (c : Change) :
    r.entries (changes ++ [c]) = r.entries changes ++ [(c, ((r.after changes).step c).2)] := by
  induction changes generalizing r with
  | nil => rfl
  | cons d rest ih => exact congrArg (_ :: ·) (ih (r.step d).1)

theorem record_concat (first : Ed25519.SigningKey) (changes : List Change) (c : Change) :
    record first (changes ++ [c]) =
      record first changes ++ [(c, (((ofKey first).after changes).step c).2)] := by
  rw [record, entries_concat]
  rfl

def Files (publisher : PublisherId) (e : Entry) : Prop := e.2 = .filed publisher

def Takes (publisher : PublisherId) (e : Entry) : Prop :=
  ∃ key, e = (.remove publisher, .removed (some key))

/-- A key of the publisher was put into the ring and has not been taken out since. -/
def Kept (publisher : PublisherId) (record : List Entry) : Prop :=
  ∃ before e later, record = before ++ e :: later ∧ Files publisher e ∧
    ∀ x ∈ later, ¬Takes publisher x

theorem kept_concat {publisher : PublisherId} {record : List Entry} {e : Entry} :
    Kept publisher (record ++ [e]) ↔
      Files publisher e ∨ Kept publisher record ∧ ¬Takes publisher e := by
  constructor
  · rintro ⟨before, x, later, split, files, untaken⟩
    -- the entry that filed the key is the last one or an earlier one
    rcases later.eq_nil_or_concat' with rfl | ⟨later, last, rfl⟩
    · obtain ⟨-, same⟩ := List.append_inj' split rfl
      exact .inl (List.singleton_inj.mp same ▸ files)
    · rw [← List.cons_append, ← List.append_assoc] at split
      obtain ⟨earlier, same⟩ := List.append_inj' split rfl
      obtain rfl := List.singleton_inj.mp same
      obtain ⟨untaken, kept⟩ := List.forall_mem_append.mp untaken
      exact .inr ⟨⟨before, x, later, earlier, files, untaken⟩, kept e (List.mem_singleton_self e)⟩
  · rintro (files | ⟨⟨before, x, later, rfl, files, untaken⟩, kept⟩)
    · exact ⟨record, e, [], rfl, files, nofun⟩
    · refine ⟨before, x, later ++ [e], by simp, files, List.forall_mem_append.mpr ⟨untaken, ?_⟩⟩
      exact List.forall_mem_singleton.mpr kept

theorem mem_publishers {r : KeyRing} {publisher : PublisherId} :
    publisher ∈ r.publishers ↔ r.keys.contains publisher = true := by
  rw [Table.contains_iff, publishers, Table.keys, List.mem_map]
  constructor
  · rintro ⟨e, mem, rfl⟩
    exact ⟨e.2, mem⟩
  · rintro ⟨key, mem⟩
    exact ⟨_, mem, rfl⟩

theorem signingKey_isOk_iff {r : KeyRing} {publisher : PublisherId} :
    (∃ key, r.signingKey publisher = .ok key) ↔ publisher ∈ r.publishers := by
  simp only [signingKey_eq_ok, mem_publishers, Table.contains, Option.isSome_iff_exists]

theorem mem_publishers_insert {r : KeyRing} {key : Ed25519.SigningKey} {publisher : PublisherId} :
    publisher ∈ (r.insert key).publishers ↔
      publisherOf key = publisher ∨ publisher ∈ r.publishers := by
  rw [mem_publishers, insert, Table.contains_insert, Bool.or_eq_true, decide_eq_true_iff,
    eq_comm (a := publisher), mem_publishers]

theorem mem_publishers_erase {r : KeyRing} {gone publisher : PublisherId} :
    publisher ∈ ({ r with keys := r.keys.erase gone } : KeyRing).publishers ↔
      publisher ∈ r.publishers ∧ publisher ≠ gone := by
  rw [mem_publishers, mem_publishers, Table.contains, Table.find?_erase, Table.contains]
  split <;> simp_all

theorem mem_publishers_ofKey {first : Ed25519.SigningKey} {publisher : PublisherId} :
    publisher ∈ (ofKey first).publishers ↔ publisherOf first = publisher := by
  have only : publisher ∉ (⟨Table.empty, publisherOf first⟩ : KeyRing).publishers := nofun
  exact mem_publishers_insert.trans (or_iff_left only)

theorem setDefault_eq (r : KeyRing) (publisher : PublisherId) : r.setDefault publisher =
    if publisher ∈ r.publishers then .ok { r with default := publisher }
    else .error (missing publisher) := by
  simp only [setDefault, mem_publishers]

theorem step_remove_eq_self {r : KeyRing} {publisher : PublisherId}
    (idle : publisher = r.default ∨ publisher ∉ r.publishers) :
    r.step (.remove publisher) = (r, .removed none) := by
  rcases idle with rfl | absent
  · simp [step, remove, removable?]
  · have none : r.keys.find? publisher = none := by
      simpa [mem_publishers, Table.contains] using absent
    have same : r.keys.erase publisher = r.keys :=
      Table.eq_of_toList (Table.erase_eq_self none)
    simp [step, remove, removable?, none, same]

theorem step_remove {r : KeyRing} {publisher : PublisherId} {key : Ed25519.SigningKey}
    (other : publisher ≠ r.default) (found : r.keys.find? publisher = some key) :
    r.step (.remove publisher) =
      ({ r with keys := r.keys.erase publisher }, .removed (some key)) := by
  rw [step, remove, removable?, if_neg other.symm, if_neg other.symm, found]

/-- The ring is in keeping with its record. -/
structure InKeeping (r : KeyRing) (record : List Entry) : Prop where
  filed : r.Filed
  default : r.default ∈ r.publishers
  listed : ∀ publisher, publisher ∈ r.publishers ↔ Kept publisher record

namespace InKeeping

variable {r : KeyRing} {record : List Entry}

theorem concat_of_idle (h : r.InKeeping record) {e : Entry} (fileless : ∀ p, ¬Files p e)
    (takeless : ∀ p, ¬Takes p e) : r.InKeeping (record ++ [e]) := by
  refine ⟨h.filed, h.default, fun publisher => ?_⟩
  rw [kept_concat, h.listed]
  simp [fileless, takeless]

theorem ofKey (first : Ed25519.SigningKey) :
    (KeyRing.ofKey first).InKeeping (KeyRing.record first []) := by
  refine ⟨filed_ofKey first, mem_publishers_ofKey.mpr rfl, fun publisher => ?_⟩
  have unkept : ¬Kept publisher [] := fun ⟨_, _, _, split, _⟩ => by simp at split
  have begins : Kept publisher ([] ++ [(.insert first, .filed (publisherOf first))]) ↔
      publisherOf first = publisher := by
    rw [kept_concat]
    simp [unkept, Files]
  exact mem_publishers_ofKey.trans begins.symm

theorem insert (h : r.InKeeping record) (key : Ed25519.SigningKey) :
    (r.insert key).InKeeping (record ++ [(.insert key, .filed (publisherOf key))]) := by
  refine ⟨h.filed.insert key, mem_publishers_insert.mpr (.inr h.default), fun publisher => ?_⟩
  have takeless : ¬Takes publisher (.insert key, .filed (publisherOf key)) := by simp [Takes]
  rw [kept_concat, mem_publishers_insert, h.listed, and_iff_left takeless]
  simp [Files]

theorem switch (h : r.InKeeping record) {publisher : PublisherId}
    (here : publisher ∈ r.publishers) :
    InKeeping { r with default := publisher } (record ++ [(.setDefault publisher, .switched)]) := by
  have idle : r.InKeeping (record ++ [(.setDefault publisher, .switched)]) :=
    h.concat_of_idle (by simp [Files]) (by simp [Takes])
  exact ⟨idle.filed, here, idle.listed⟩

theorem remove (h : r.InKeeping record) {gone : PublisherId} {key : Ed25519.SigningKey}
    (other : gone ≠ r.default) :
    InKeeping { r with keys := r.keys.erase gone }
      (record ++ [(.remove gone, .removed (some key))]) := by
  have filed := h.filed.remove gone
  rw [KeyRing.remove, if_neg other.symm] at filed
  refine ⟨filed, mem_publishers_erase.mpr ⟨h.default, other.symm⟩, fun publisher => ?_⟩
  have fileless : ¬Files publisher (.remove gone, .removed (some key)) := by simp [Files]
  have takes : Takes publisher (.remove gone, .removed (some key)) ↔ publisher = gone := by
    simp [Takes, eq_comm]
  rw [kept_concat, mem_publishers_erase, h.listed, takes, or_iff_right fileless]

theorem step (h : r.InKeeping record) (c : Change) :
    (r.step c).1.InKeeping (record ++ [(c, (r.step c).2)]) := by
  cases c with
  | insert key => exact h.insert key
  | setDefault publisher =>
    rw [KeyRing.step, setDefault_eq]
    by_cases here : publisher ∈ r.publishers
    · rw [if_pos here]
      exact h.switch here
    · rw [if_neg here]
      exact h.concat_of_idle (by simp [Files]) (by simp [Takes])
  | remove publisher =>
    by_cases idle : publisher = r.default ∨ publisher ∉ r.publishers
    · rw [step_remove_eq_self idle]
      exact h.concat_of_idle (by simp [Files]) (by simp [Takes])
    · obtain ⟨other, here⟩ := not_or.mp idle
      obtain ⟨key, found⟩ := signingKey_isOk_iff.mpr (not_not.mp here)
      rw [step_remove other (signingKey_eq_ok.mp found)]
      exact h.remove other

end InKeeping

theorem inKeeping (first : Ed25519.SigningKey) (changes : List Change) :
    ((ofKey first).after changes).InKeeping (record first changes) := by
  induction changes using List.reverseRecOn with
  | nil => exact .ofKey first
  | append_singleton changes c ih =>
    rw [after_concat, record_concat]
    exact ih.step c

theorem publishers_ascending (r : KeyRing) :
    r.publishers.Pairwise fun p q => compare p q = .lt :=
  List.pairwise_map.mpr r.keys.ascending

/-- Whatever has been done to a ring since its first key, the default publisher
has its key in the ring, and every key is filed under the digest of its own
public half. The publishers are listed in ascending order, and they are those
that were put in and not taken out since. A switch to a publisher that is not
there and the removal of one that is not there, or of the default one, leave
the ring as it is. The commands on keys act on the ring of a world in this way. -/
theorem account_kept (first : Ed25519.SigningKey) (changes : List Change) :
    let r := (ofKey first).after changes
    (∃ key, r.signingKey r.default = .ok key) ∧
    (∀ e ∈ r.keys.toList, e.1 = ⟨sha256 e.2.verifyingKey.bytes⟩) ∧
    (∀ publisher key, r.signingKey publisher = .ok key →
      PublisherId.ofKey key.verifyingKey = publisher) ∧
    (r.publishers.Pairwise fun p q => compare p q = .lt) ∧
    (∀ publisher, publisher ∈ r.publishers ↔ Kept publisher (record first changes)) ∧
    (∀ publisher error, (r.step (.setDefault publisher)).2 = .refused error →
      (r.step (.setDefault publisher)).1 = r ∧ error = missing publisher ∧
        publisher ∉ r.publishers) ∧
    (∀ publisher, publisher = r.default ∨ publisher ∉ r.publishers →
      r.step (.remove publisher) = (r, .removed none)) ∧
    ∀ (w : World) (n : Nat) (c : Change), w.keys = r →
      (Session.perform w n c.command).1.keys = (r.step c).1 := by
  intro r
  have h : r.InKeeping (record first changes) := inKeeping first changes
  refine ⟨signingKey_isOk_iff.mpr h.default, ?_, ?_, r.publishers_ascending, h.listed, ?_,
    fun publisher => step_remove_eq_self, ?_⟩
  · intro e mem
    exact (h.filed e.1 e.2 (Table.find?_eq_some.mpr mem)).symm
  · intro publisher key available
    exact h.filed publisher key (signingKey_eq_ok.mp available)
  · intro publisher error refused
    rw [step, setDefault_eq] at refused ⊢
    by_cases here : publisher ∈ r.publishers
    · rw [if_pos here] at refused
      contradiction
    · rw [if_neg here] at refused ⊢
      exact ⟨rfl, (Answer.refused.inj refused).symm, here⟩
  · intro w n c same
    rw [perform_command, same]

/-- Somebody unknown is made the default and then removed, neither of which
has an effect, and at last the default publisher is removed, which has none either. -/
theorem account_kept_stranger : ∃ (first : Ed25519.SigningKey) (stranger : PublisherId),
    let r := (ofKey first).after
      [.setDefault stranger, .remove stranger, .remove (publisherOf first)]
    stranger ∉ r.publishers ∧ r.step (.remove stranger) = (r, .removed none) ∧
      r.step (.remove r.default) = (r, .removed none) ∧
      ∃ key, r.signingKey r.default = .ok key ∧ PublisherId.ofKey key.verifyingKey = r.default := by
  let first : Ed25519.SigningKey := ⟨List.replicate 32 5, by decide⟩
  obtain ⟨stranger, apart⟩ : ∃ stranger, stranger ≠ publisherOf first := by
    by_contra same
    push Not at same
    have distinct : (⟨.zero⟩ : PublisherId) ≠ ⟨sha256 []⟩ := by decide +kernel
    exact distinct ((same _).trans (same _).symm)
  refine ⟨first, stranger, ?_⟩
  intro r
  obtain ⟨available, -, own, -, listed, -, idle, -⟩ := account_kept first
    [.setDefault stranger, .remove stranger, .remove (publisherOf first)]
  have absent : stranger ∉ r.publishers := by
    rw [listed]
    rintro ⟨before, e, later, split, files, -⟩
    have mem := split ▸ List.mem_append_right before List.mem_cons_self
    simp only [record, entries, List.mem_cons, List.not_mem_nil, or_false] at mem
    rcases mem with rfl | rfl | rfl | rfl
    · exact apart (Answer.filed.inj files).symm
    · rw [Files, step] at files
      split at files <;> contradiction
    · contradiction
    · contradiction
  obtain ⟨key, found⟩ := available
  exact ⟨absent, idle stranger (.inr absent), idle r.default (.inl rfl), key, found,
    own r.default key found⟩

end KeyRing

end NamedContent
