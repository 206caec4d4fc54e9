import NamedContent.Verify
import NamedContent.World.Schedule

/-!
# Commands and replies

A command names its arguments by their texts. They are read when the command
is carried out, in the order of the fields, so that the first fault decides.
-/

set_option autoImplicit false

namespace NamedContent.Session

inductive NameText where
  | uri (text : String)
  | exact (components : List Component)
  deriving DecidableEq, Repr

inductive InterestText where
  | plain (name : NameText) (startAfter : Option NameText)
  | nextAfter (previous : NameText)
  deriving DecidableEq, Repr

inductive LocatorText where
  | key (bytes : Bytes)
  | keyName (name : NameText)
  | keyDigest (publisher : PublisherId)
  deriving DecidableEq, Repr

def readName : NameText → Except PublishError Name
  | .uri text => (Uri.read text).mapError fun fault => .invalidArgument (.uri fault)
  | .exact components => .ok ⟨components⟩

def readInterest : InterestText → Except PublishError Interest
  | .plain name none => do return .ofName (← readName name)
  | .plain name (some start) => do
    let name ← readName name
    return ⟨name, some (← readName start)⟩
  | .nextAfter previous => do return .nextAfter (← readName previous)

def readLocator : LocatorText → Except PublishError KeyLocator
  | .key bytes => .ok (.key bytes)
  | .keyName name => do return .keyName (← readName name)
  | .keyDigest publisher => .ok (.keyDigest publisher)

/-- A block as it is given by hand, without a signature. Its publisher is known by `key`. -/
structure PlainBlock where
  name : NameText
  /-- Without it, the segment number of the name or zero. -/
  sequence : Option UInt64
  payload : Bytes
  key : Bytes

structure WriteText where
  name : NameText
  content : Bytes
  options : Segmenter.Options
  locator : Option LocatorText

inductive Command where
  | advance (ms : Nat)
  | cancel (task : Nat)
  | put (block : PlainBlock)
  | request (interest : InterestText) (timeout : Nat)
  | close
  | waitForDrain (timeout : Nat)
  | setCapacity (n : Nat)
  | addNamespace (name : NameText)
  | removeNamespace (name : NameText)
  | namespaces
  | clear
  | remove (name : NameText)
  | contains (name : NameText)
  | peek (name : NameText) (full : Bool)
  | describeBuffer
  | subscribe (id : String) (interest : InterestText) (limit : Option Nat)
  | readSubscription (id : String)
  /-- Reads without telling an empty feed from an ended one. -/
  | pollSubscription (id : String)
  | dropSubscription (id : String)
  | describeSubscription (id : String)
  | insertKey (key : Ed25519.SigningKey)
  | setDefaultKey (publisher : PublisherId)
  | removeKey (publisher : PublisherId)
  | newSegmenter (id : String) (config : Segmenter.Config)
  | write (id : String) (text : WriteText)
  | closeSegmenter (id : String)
  | setNumbering (id : String) (numbering : Numbering)
  | setBlockSize (id : String) (size : Nat)
  | setNext (id : String) (number : UInt64)
  | segmenterState (id : String)
  | dropSegmenter (id : String)
  | describeSegmenter (id : String)
  | connect (face : String)
  | disconnect (face : String)
  | dropFace (face : String)
  | listFaces
  | express (face : String) (interest : InterestText)
  | fetch (face : String) (interest : InterestText) (timeout : Nat)
  | readFace (face : String)
  | send (face : String) (block : PlainBlock)
  | takeInbound
  | readInbound
  | dropInbound
  | startServer (timeout : Nat)
  | serverStats
  | shutServer
  | dropServer

structure Inspection where
  block : Block
  leafAtEpoch : Digest
  verified : Except PublishError (Except VerifyFault Unit)
  selfCertified : Except VerifyFault Unit

structure SegmenterState where
  segmenter : Segmenter
  namespaces : List Name
  publishers : Nat

inductive Reply where
  | pending
  | answer (answer : Answer)
  | names (names : List Name)
  | labels (labels : List String)
  | text (text : String)
  | publisher (publisher : PublisherId)
  | inspection (inspection : Inspection)
  | segmenter (state : SegmenterState)
  | arrival (face : String) (interest : Interest)
  | stats (stats : ServerStats) (finished : Bool)

abbrev Result := Except Fault Reply

structure Status where
  phase : Phase
  size : Nat
  unclaimed : Nat
  pending : Nat
  capacity : Nat

structure Ended where
  task : Nat
  time : Nat
  outcome : Outcome

structure Report where
  result : Result
  time : Nat
  status : Status
  ended : List Ended

def Status.line (s : Status) : String :=
  s.phase.describe ++ " len=" ++ s.size.repr ++ " unclaimed=" ++ s.unclaimed.repr ++ " pending=" ++
    s.pending.repr ++ " capacity=" ++ s.capacity.repr ++ " empty=" ++
    (if s.size = 0 then "true" else "false")

end NamedContent.Session
