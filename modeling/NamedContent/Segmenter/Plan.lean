import NamedContent.KeyRing
import NamedContent.Segmenter.Config

/-!
# Cutting content into segments

A segmenter writes a stream of numbered segments under a root. Puts under one
root go on with its numbers; a put under another root starts over. While a
stream is open the segmenter holds its root as a namespace. A put is planned
first: all blocks are named, numbered and signed before the first of them goes
to the buffer. Content shorter than a block becomes one block at the next
number and leaves the numbering as it is.
-/

set_option autoImplicit false

namespace NamedContent

structure Segmenter where
  config : Segmenter.Config
  next : UInt64
  /-- The root to which that number belongs. -/
  streamRoot : Option Name
  /-- The namespace that the segmenter holds. -/
  held : Option Name
  deriving DecidableEq, Repr

namespace Segmenter

structure Options where
  offset : Nat := 0
  /-- How long that part is; without it, all that follows. -/
  length : Option Nat := none
  /-- The last block written ends the object. -/
  isFinal : Bool := false
  contentType : ContentType := .fragment
  freshness : Option UInt32 := none
  keyLocator : Option KeyLocator := none
  publisher : Option PublisherId := none
  deriving DecidableEq, Repr

structure Writing where
  blocks : List Block
  first : Option Block
  next : UInt64
  isFinal : Bool
  deriving DecidableEq, Repr

inductive Holding where
  | hold (name : Name)
  | release (name : Name)
  deriving DecidableEq, Repr

structure Plan where
  segmenter : Segmenter
  holdings : List Holding
  writing : Except PublishError Writing

def ofConfig (config : Config) : Except PublishError Segmenter := do
  config.validate
  return ⟨config, config.numbering.base, none, none⟩

/-- Another numbering starts over, whatever the root. -/
def setNumbering (s : Segmenter) (n : Numbering) : Except PublishError Segmenter := do
  Config.checkNumbering n
  return { s with config := { s.config with numbering := n }, next := n.base, streamRoot := none }

def setBlockSize (s : Segmenter) (size : Nat) : Except PublishError Segmenter :=
  if size = 0 then .error (.invalidArgument .zeroBlockSize)
  else .ok { s with config := { s.config with blockSize := size } }

/-- The next put takes this number, whatever its root. -/
def setNext (s : Segmenter) (number : UInt64) : Segmenter :=
  { s with next := number, streamRoot := none }

def enter (s : Segmenter) (root : Name) : Segmenter × List Holding :=
  let moved := s.streamRoot.any fun current => current ≠ root
  let next := if moved then s.config.numbering.base else s.next
  let holdings :=
    if s.held = some root then []
    else (s.held.map Holding.release).toList ++ [.hold root]
  ({ s with next, streamRoot := some root, held := some root }, holdings)

def letGo (s : Segmenter) : Segmenter × List Holding :=
  ({ s with held := none }, (s.held.map Holding.release).toList)

def slice (content : Bytes) (options : Options) : Except PublishError Bytes :=
  let length := options.length.getD (content.length - options.offset)
  if options.offset + length ≤ content.length then
    .ok ((content.drop options.offset).take length)
  else .error (.invalidArgument (.badRange options.offset length content.length))

def cut (blockSize : Nat) (data : Bytes) : List Bytes :=
  pieces blockSize ((data.length + blockSize - 1) / blockSize) data

def number (numbering : Numbering) (root : Name) : UInt64 → List Bytes → List Draft × UInt64
  | n, [] => ([], n)
  | n, payload :: rest =>
    let (drafts, after) := number numbering root (numbering.next n payload.length) rest
    (⟨root.segmentName n, n, payload⟩ :: drafts, after)

/-- Names, numbers and signs the blocks of the data under the current stream. -/
def prepare (s : Segmenter) (root : Name) (data : Bytes) (info : SignedInfo) (isFinal : Bool)
    (signer : RootSigner) : Except PublishError Writing :=
  if data.length < s.config.blockSize then do
    let info := { info with finalSegment := if isFinal then some s.next else none }
    let block ← Batch.signOne ⟨root.segmentName s.next, s.next, data⟩ info signer
    return ⟨[block], none, s.next, isFinal⟩
  else do
    let (drafts, after) := number s.config.numbering root s.next (cut s.config.blockSize data)
    let last := drafts.getLast?.map Draft.sequence
    let batch ← Batch.sign true drafts { info with finalSegment := if isFinal then last else none } signer
    return ⟨batch.blocks, none, after, isFinal⟩

/-- Plans a put at a time. A bad range or a missing key ends it before the
segmenter enters the stream. -/
def plan (s : Segmenter) (keys : KeyRing) (timestamp : Int64) (name : Name) (content : Bytes)
    (options : Options) : Except PublishError Plan := do
  let data ← slice content options
  let root := name.segmentRoot
  let publisher := options.publisher.getD keys.default
  let key ← keys.signingKey publisher
  let info : SignedInfo :=
    { publisher, timestamp, contentType := options.contentType
      keyLocator := options.keyLocator.getD (KeyRing.locator key)
      freshness := options.freshness, finalSegment := none }
  let (s, holdings) := s.enter root
  return ⟨s, holdings, s.prepare root data info options.isFinal (.ofKey key)⟩

def Writing.arrived (w : Writing) (block : Block) (rest : List Block) : Writing :=
  { w with blocks := rest, first := some (w.first.getD block) }

/-- All blocks have arrived. A final put closes the stream. -/
def complete (s : Segmenter) (w : Writing) : Segmenter × List Holding :=
  let s := { s with next := w.next }
  if w.isFinal then s.letGo else (s, [])

def describe (s : Segmenter) (buffer : String) : String :=
  let root := match s.streamRoot with
    | some root => "Some(Name(" ++ root.uri ++ "))"
    | none => "None"
  "Segmenter \x7b config: SegmenterConfig \x7b block_size: " ++ s.config.blockSize.repr ++
    ", numbering: " ++ s.config.numbering.describe ++ " \x7d, next_sequence: " ++
    s.next.toNat.repr ++ ", stream_root: " ++ root ++ ", buffer: " ++ buffer ++ " \x7d"

end Segmenter

end NamedContent
