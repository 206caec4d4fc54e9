import NamedContent.Batch
import NamedContent.Table

/-!
# Publisher keys

A key ring files signing keys under the publishers they make, and has a
default publisher, whose key stays in the ring.
-/

set_option autoImplicit false

namespace NamedContent

def PublisherId.ofKey (key : Ed25519.VerifyingKey) : PublisherId := .ofPublicKey key.bytes

structure KeyRing where
  keys : Table PublisherId Ed25519.SigningKey
  default : PublisherId

namespace KeyRing

def publisherOf (key : Ed25519.SigningKey) : PublisherId := .ofKey key.verifyingKey

def ofKey (key : Ed25519.SigningKey) : KeyRing :=
  ⟨Table.empty.insert (publisherOf key) key, publisherOf key⟩

def size (r : KeyRing) : Nat := r.keys.size

def publishers (r : KeyRing) : List PublisherId := r.keys.keys

def insert (r : KeyRing) (key : Ed25519.SigningKey) : KeyRing :=
  { r with keys := r.keys.insert (publisherOf key) key }

def missing (publisher : PublisherId) : PublishError := .keyUnavailable publisher.digest.hex

/-- Only a publisher with a key in the ring becomes the default. -/
def setDefault (r : KeyRing) (publisher : PublisherId) : Except PublishError KeyRing :=
  if r.keys.contains publisher then .ok { r with default := publisher }
  else .error (missing publisher)

/-- The key that `remove` takes out: none for the default publisher. -/
def removable? (r : KeyRing) (publisher : PublisherId) : Option Ed25519.SigningKey :=
  if r.default = publisher then none else r.keys.find? publisher

def remove (r : KeyRing) (publisher : PublisherId) : KeyRing :=
  if r.default = publisher then r else { r with keys := r.keys.erase publisher }

def signingKey (r : KeyRing) (publisher : PublisherId) :
    Except PublishError Ed25519.SigningKey :=
  match r.keys.find? publisher with
  | some key => .ok key
  | none => .error (missing publisher)

def verifyingKey (r : KeyRing) (publisher : PublisherId) :
    Except PublishError Ed25519.VerifyingKey :=
  (r.signingKey publisher).map (·.verifyingKey)

def locator (key : Ed25519.SigningKey) : KeyLocator := .key key.verifyingKey.bytes

def describe (r : KeyRing) : String :=
  "MemoryKeyStore \x7b default: " ++ r.default.describe ++ ", keys: " ++ r.size.repr ++ " \x7d"

end KeyRing

end NamedContent
