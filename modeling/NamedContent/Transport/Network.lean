import NamedContent.PublishError
import NamedContent.Block
import NamedContent.Table
import NamedContent.Transport.Channel

/-!
# Faces and their channels

A face is an endpoint with an id. Interests of all faces go into one stream,
which has one receiver. Blocks for a face go into a channel of its own, whose
other end its consumer holds. Connecting under an id again replaces the
channel for later blocks; the consumer of the old one may still hold it.
-/

set_option autoImplicit false

namespace NamedContent

inductive TransportError where
  | faceNotFound (face : String)
  | sendFailed (reason : String)
  | alreadySubscribed
  | disconnected
  | publish (error : PublishError)
  deriving DecidableEq, Repr

def TransportError.message : TransportError → String
  | .faceNotFound face => "Face not found: " ++ face
  | .sendFailed reason => "Send failed: " ++ reason
  | .alreadySubscribed => "Interest stream already taken"
  | .disconnected => "Disconnected"
  | .publish error => error.message

def TransportError.channelClosed : TransportError := .sendFailed "channel closed"

/-- The endpoints, the stream of interests and all channels ever opened, by number. -/
structure Network (κ : Type) where
  interests : Channel κ (String × Interest)
  taken : Bool
  faces : Table String Nat
  channels : List (Channel κ Block)

namespace Network

variable {κ : Type}

def empty : Network κ := ⟨.empty, false, .empty, []⟩

def channel (n : Network κ) (i : Nat) : Channel κ Block := n.channels.getD i .empty

def setChannel (n : Network κ) (i : Nat) (c : Channel κ Block) : Network κ :=
  { n with channels := n.channels.set i c }

def detach (n : Network κ) (i : Nat) : Network κ :=
  n.setChannel i { n.channel i with attached := false }

/-- Opens a channel for the face. The channel that it replaces is detached. -/
def connect (n : Network κ) (face : String) : Network κ × Nat :=
  let i := n.channels.length
  let opened := match n.faces.find? face with
    | some old => n.detach old
    | none => n
  ({ opened with faces := opened.faces.insert face i, channels := opened.channels ++ [.empty] }, i)

def disconnect (n : Network κ) (face : String) : Network κ :=
  match n.faces.find? face with
  | some i => { n.detach i with faces := n.faces.erase face }
  | none => n

end Network

end NamedContent
