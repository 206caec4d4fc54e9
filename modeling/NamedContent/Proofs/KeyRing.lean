import Mathlib
import NamedContent.KeyRing
import NamedContent.Proofs.Table

/-!
# Keys are filed under their own publishers

However a key ring has come about, the key that it has for a publisher is one
whose public half makes that publisher.
-/

set_option autoImplicit false

namespace NamedContent

namespace KeyRing

/-- The ring has come about from one key by the changes there are. -/
inductive Reachable : KeyRing → Prop
  | ofKey (key : Ed25519.SigningKey) : Reachable (ofKey key)
  | insert {r : KeyRing} (h : Reachable r) (key : Ed25519.SigningKey) : Reachable (r.insert key)
  | setDefault {r r' : KeyRing} (h : Reachable r) {publisher : PublisherId}
      (done : r.setDefault publisher = .ok r') : Reachable r'
  | remove {r : KeyRing} (h : Reachable r) (publisher : PublisherId) :
      Reachable (r.remove publisher)

/-- Every key is filed under the publisher that it makes. -/
def Filed (r : KeyRing) : Prop :=
  ∀ publisher key, r.keys.find? publisher = some key → publisherOf key = publisher

theorem Filed.insert {r : KeyRing} (h : r.Filed) (key : Ed25519.SigningKey) :
    (r.insert key).Filed := by
  intro publisher key' found
  rw [KeyRing.insert, Table.find?_insert] at found
  split at found
  · rename_i here
    rw [← Option.some.inj found, here]
  · exact h publisher key' found

theorem Filed.setDefault {r r' : KeyRing} (h : r.Filed) {publisher : PublisherId}
    (done : r.setDefault publisher = .ok r') : r'.Filed := by
  rw [KeyRing.setDefault] at done
  split at done
  · obtain rfl := Except.ok.inj done
    exact h
  · contradiction

theorem Filed.remove {r : KeyRing} (h : r.Filed) (publisher : PublisherId) :
    (r.remove publisher).Filed := by
  rw [KeyRing.remove]
  split
  · exact h
  · intro publisher' key found
    rw [Table.find?_erase] at found
    split at found
    · contradiction
    · exact h publisher' key found

theorem filed_ofKey (key : Ed25519.SigningKey) : (KeyRing.ofKey key).Filed := by
  intro publisher key' found
  rw [KeyRing.ofKey, Table.find?_insert] at found
  split at found
  · rename_i here
    rw [← Option.some.inj found, here]
  · contradiction

theorem Reachable.filed {r : KeyRing} (h : r.Reachable) : r.Filed := by
  induction h with
  | ofKey key => exact filed_ofKey key
  | insert _ key ih => exact ih.insert key
  | setDefault _ done ih => exact ih.setDefault done
  | remove _ publisher ih => exact ih.remove publisher

theorem signingKey_eq_ok {r : KeyRing} {publisher : PublisherId} {key : Ed25519.SigningKey} :
    r.signingKey publisher = .ok key ↔ r.keys.find? publisher = some key := by
  rw [signingKey]
  cases r.keys.find? publisher <;> simp

theorem verifyingKey_of_signingKey {r : KeyRing} {publisher : PublisherId}
    {key : Ed25519.SigningKey} (available : r.signingKey publisher = .ok key) :
    r.verifyingKey publisher = .ok key.verifyingKey := by
  rw [verifyingKey, available]
  rfl

end KeyRing

end NamedContent
