import NamedContent.Buffer.State

/-!
# Putting a block into the buffer

A new block is first offered to those who wait for it and then filed with the
number of readers that took it. A request takes at most one block, and in
best-effort mode a block goes to at most one request, the one that has waited
longest. A filter takes a copy if its feed has room. A full best-effort buffer
is swept of the blocks that have been delivered, unless the new block takes
the place of one with its name.
-/

set_option autoImplicit false

namespace NamedContent.Buffer

/-- An offer of one block on its way through the waiters. -/
structure Offer where
  buffer : Buffer
  /-- How many waiters took the block so far. -/
  taken : Nat
  satisfied : Bool
  notices : List Notice

def copyTo (b : Buffer) (block : Block) (w : Waiter) (limit : Option Nat) (received : Nat) : Buffer :=
  let b := { b with
    feeds := b.feeds.map fun f => if f.id = w.id then { f with queue := f.queue ++ [block] } else f
    pending := b.pending.map fun v =>
      if v.id = w.id then { v with demand := .standing limit (received + 1) } else v }
  match limit with
  | none => b
  | some limit => if limit ≤ received + 1 then b.forget w.id else b

def hasRoom (b : Buffer) (id : Nat) : Bool :=
  match b.feed? id with
  | none => false
  | some f => f.queue.length < max b.config.filterQueue 1

def Offer.toWaiter (block : Block) (o : Offer) (w : Waiter) : Offer :=
  match w.demand with
  | .once =>
    if o.satisfied && o.buffer.bestEffort then o
    else
      { buffer := o.buffer.forget w.id, taken := o.taken + 1, satisfied := true
        notices := o.notices ++ [.handed w.id block] }
  | .standing limit received =>
    if o.buffer.hasRoom w.id then
      { o with buffer := o.buffer.copyTo block w limit received, taken := o.taken + 1 }
    else o

def Offer.toId (block : Block) (o : Offer) (id : Nat) : Offer :=
  match o.buffer.waiter? id with
  | none => o
  | some w => if w.interest.accepts block.name then o.toWaiter block w else o

/-- Offers the block to all who wait for it, the oldest registration first. -/
def offer (b : Buffer) (block : Block) : Offer :=
  (b.matcher.matching block.name).mergeSort.foldl (Offer.toId block) ⟨b, 0, false, []⟩

/-- Drops the entries that have been delivered. -/
def sweep (b : Buffer) : Buffer :=
  { b with entries := b.entries.filter fun _ e => e.deliveries = 0 }

def isFullFor (b : Buffer) (name : Name) : Bool :=
  !b.entries.contains name && b.capacity ≤ b.size

def makeRoom (b : Buffer) (name : Name) : Buffer :=
  if b.isFullFor name && b.bestEffort then b.sweep else b

def file (b : Buffer) (block : Block) : Buffer × List Notice :=
  let o := { b with nextOrder := b.nextOrder + 1 }.offer block
  let entries := o.buffer.entries.insert block.name ⟨block, b.nextOrder, o.taken⟩
  ({ o.buffer with entries }, o.notices ++ if o.taken = 0 then [] else [.claimed])

inductive Insertion where
  | refused (error : PublishError)
  | full (buffer : Buffer)
  | filed (buffer : Buffer) (notices : List Notice)

def tryInsert (b : Buffer) (block : Block) : Insertion :=
  if b.phase ≠ .accepting then .refused .closedBuffer
  else if !b.admits block.name then
    .refused (.invalidArgument (.outsideNamespaces block.name))
  else
    let b := b.makeRoom block.name
    if b.isFullFor block.name then .full b
    else
      let (b, notices) := b.file block
      .filed b notices

end NamedContent.Buffer
