import NamedContent.Buffer.State

/-!
# Taking blocks out of the buffer

A request is answered from the buffer if an entry is available to it: the
first segment in the order of names, or without segments the entry that was
inserted first. All names that a name covers follow it in order, so the scan
starts at the name of the interest and ends where the names are no longer
covered.
-/

set_option autoImplicit false

namespace NamedContent.Buffer

/-- In best-effort mode an entry is there for one reader only. -/
def isAvailable (b : Buffer) (interest : Interest) (e : Entry) : Bool :=
  interest.accepts e.block.name && !(b.bestEffort && e.deliveries != 0)

def candidates (b : Buffer) (interest : Interest) : List Entry :=
  let covered := (b.entries.startingAt interest.name).takeWhile fun e => interest.name.isPrefixOf e.1
  (covered.map (·.2)).filter (b.isAvailable interest)

def oldest? : List Entry → Option Entry
  | [] => none
  | e :: rest =>
    match oldest? rest with
    | none => some e
    | some f => if f.order < e.order then some f else some e

def select? (entries : List Entry) : Option Entry :=
  match entries.find? fun e => e.block.name.isSegment with
  | some e => some e
  | none => oldest? entries

/-- The block that answers the interest, and the buffer after its delivery. -/
def take? (b : Buffer) (interest : Interest) : Option (Block × Buffer) :=
  (select? (b.candidates interest)).map fun e =>
    (e.block, { b with entries := b.entries.insert e.block.name e.afterRead })

def deliveryNotices (b : Buffer) : List Notice :=
  if b.bestEffort then [.claimed, .space] else [.claimed]

inductive Reception where
  | refused
  | served (block : Block) (buffer : Buffer)
  | parked (buffer : Buffer) (id : Nat)

def request (b : Buffer) (interest : Interest) : Reception :=
  if b.phase = .closed then .refused
  else match b.take? interest with
    | some (block, b) => .served block b
    | none => .parked (b.enroll interest .once) b.nextId

def subscribe? (b : Buffer) (interest : Interest) (limit : Option Nat) : Option Buffer :=
  if b.phase = .closed then none
  else
    let opened := b.enroll interest (.standing limit 0)
    some { opened with feeds := opened.feeds ++ [⟨b.nextId, []⟩] }

inductive Reading where
  | block (block : Block)
  | waiting
  | ended
  deriving DecidableEq, Repr

def readFeed (b : Buffer) (id : Nat) : Buffer × Reading :=
  match b.feed? id with
  | none => (b, .ended)
  | some f =>
    match f.queue with
    | [] => (b, if (b.waiter? id).isSome then .waiting else .ended)
    | block :: rest =>
      ({ b with feeds := b.feeds.map fun f => if f.id = id then { f with queue := rest } else f },
        .block block)

def dropFeed (b : Buffer) (id : Nat) : Buffer :=
  let b := b.forget id
  { b with feeds := b.feeds.filter fun f => f.id ≠ id }

def remove? (b : Buffer) (name : Name) : Option (Block × Buffer) :=
  (b.entries.find? name).map fun e => (e.block, { b with entries := b.entries.erase name })

def clear (b : Buffer) : Buffer := { b with entries := .empty }

def removalNotices : List Notice := [.space, .claimed]

def beginDrain (b : Buffer) : Buffer := { b with phase := .draining }

/-- The end of closing: nothing stays, and all who wait are let go. -/
def shut (b : Buffer) : Buffer :=
  { b with phase := .closed, entries := .empty, pending := [], matcher := .empty }

def shutNotices (b : Buffer) : List Notice :=
  (b.pending.filter fun w => w.demand = .once).map (fun w => .released w.id) ++ removalNotices

def peek? (b : Buffer) (name : Name) : Option Block := (b.entries.find? name).map (·.block)

def contains (b : Buffer) (name : Name) : Bool := b.entries.contains name

end NamedContent.Buffer
