import NamedContent.Digest
import NamedContent.Ed25519.Signature
import NamedContent.Name.Uri
import NamedContent.Numbering
import NamedContent.Text.Duration

/-!
# Errors of publishing

An error is a kind, on which callers branch, and within the kind a cause. The
wording is in one place.
-/

set_option autoImplicit false

namespace NamedContent

inductive ArgumentFault where
  | uri (fault : UriFault)
  | numbering (fault : NumberingFault)
  | zeroBlockSize
  | badSetting (setting value : String) (fault : Text.DecimalFault)
  | emptyTree
  | emptyBatch
  | outsideNamespaces (name : Name)
  | badRange (offset length size : Nat)
  | other (text : String)
  deriving DecidableEq, Repr

def ArgumentFault.message : ArgumentFault → String
  | .uri fault => fault.message
  | .numbering fault => fault.message
  | .zeroBlockSize => "block size must be positive"
  | .badSetting setting value fault => setting ++ "=" ++ Text.quote value ++ ": " ++ fault.message
  | .emptyTree => "cannot build a Merkle tree with no leaves"
  | .emptyBatch => "signing batch must contain at least one block"
  | .outsideNamespaces name => name.uri ++ " is outside every registered namespace"
  | .badRange offset length size =>
    "range " ++ offset.repr ++ "+" ++ length.repr ++ " exceeds content of " ++ size.repr ++ " bytes"
  | .other text => text

inductive SigningFault where
  | noPath (index : Nat)
  | pathMisses (index : Nat) (root : Digest)
  | noBlock
  | signature (fault : Ed25519.SignatureFault)
  | other (text : String)
  deriving DecidableEq, Repr

def SigningFault.message : SigningFault → String
  | .noPath index => "no path for leaf " ++ index.repr
  | .pathMisses index root =>
    "path for leaf " ++ index.repr ++ " does not reach root " ++ root.short
  | .noBlock => "batch of one produced no block"
  | .signature fault => fault.message
  | .other text => text

inductive PublishError where
  | invalidArgument (fault : ArgumentFault)
  | keyUnavailable (who : String)
  | capacityExceeded (capacity occupancy : Nat)
  | closedBuffer
  | timeout (limit : Duration)
  | signingFailure (fault : SigningFault)
  deriving DecidableEq, Repr

namespace PublishError

def message : PublishError → String
  | .invalidArgument fault => "Invalid argument: " ++ fault.message
  | .keyUnavailable who => "Key unavailable: " ++ who
  | .capacityExceeded capacity occupancy =>
    "Capacity exceeded: " ++ occupancy.repr ++ " of " ++ capacity.repr ++ " slots in use"
  | .closedBuffer => "Buffer is closed"
  | .timeout limit => "Timed out after " ++ limit.text
  | .signingFailure fault => "Signing failure: " ++ fault.message

def isCallerCorrectable : PublishError → Bool
  | .invalidArgument _ | .keyUnavailable _ => true
  | _ => false

def isBackpressure : PublishError → Bool
  | .capacityExceeded .. | .closedBuffer => true
  | _ => false

end PublishError

end NamedContent
