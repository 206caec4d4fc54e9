import NamedContent.Block
import NamedContent.Buffer.Config
import NamedContent.Matcher
import NamedContent.PublishError
import NamedContent.Table

/-!
# The state of a buffer

Blocks are filed under their names. Readers that wait are kept in the order of
their registration ids, and the matcher holds the pattern of each. A standing
filter reads its copies from a feed, which outlives the registration until the
filter is dropped. Namespaces are counted, and admit only names under them.
-/

set_option autoImplicit false

namespace NamedContent

inductive Phase where
  | accepting
  /-- Puts are refused and requests are still served. -/
  | draining
  | closed
  deriving DecidableEq, Repr, Inhabited

def Phase.describe : Phase → String
  | .accepting => "Open"
  | .draining => "Draining"
  | .closed => "Closed"

structure Entry where
  block : Block
  /-- Entries are numbered in the order in which they were inserted. -/
  order : Nat
  deliveries : Nat
  deriving DecidableEq, Repr

/-- The entry after one more reader. The counter has 32 bits. -/
def Entry.afterRead (e : Entry) : Entry := { e with deliveries := (e.deliveries + 1) % UInt32.size }

/-- Who waits: a request for one block, or a filter for all, with an optional
limit and the number of blocks it has had. -/
inductive Demand where
  | once
  | standing (limit : Option Nat) (received : Nat)
  deriving DecidableEq, Repr

structure Waiter where
  id : Nat
  interest : Interest
  demand : Demand
  deriving DecidableEq, Repr

structure Feed where
  id : Nat
  queue : List Block
  deriving DecidableEq, Repr

structure Buffer where
  config : Buffer.Config
  phase : Phase
  capacity : Nat
  entries : Table Name Entry
  pending : List Waiter
  matcher : Matcher Nat
  feeds : List Feed
  /-- The registered namespaces and how many hold each. -/
  namespaces : Table Name Nat
  nextId : Nat
  nextOrder : Nat

inductive Notice where
  /-- Room may have appeared, or the phase has changed. -/
  | space
  | claimed
  | handed (id : Nat) (block : Block)
  | released (id : Nat)
  deriving DecidableEq, Repr

namespace Buffer

def ofConfig (config : Config) : Buffer :=
  { config, phase := .accepting, capacity := config.capacity, entries := .empty, pending := []
    matcher := .empty, feeds := [], namespaces := .empty, nextId := 0, nextOrder := 0 }

def bestEffort (b : Buffer) : Bool := b.config.mode == .bestEffort

def size (b : Buffer) : Nat := b.entries.size

def unclaimed (b : Buffer) : Nat :=
  (b.entries.values.filter fun e => e.deliveries = 0).length

def waiter? (b : Buffer) (id : Nat) : Option Waiter := b.pending.find? fun w => w.id = id

def feed? (b : Buffer) (id : Nat) : Option Feed := b.feeds.find? fun f => f.id = id

def enroll (b : Buffer) (interest : Interest) (demand : Demand) : Buffer :=
  { b with
    pending := b.pending ++ [⟨b.nextId, interest, demand⟩]
    matcher := b.matcher.register interest.name b.nextId
    nextId := b.nextId + 1 }

def forget (b : Buffer) (id : Nat) : Buffer :=
  match b.waiter? id with
  | none => b
  | some w =>
    { b with
      pending := b.pending.filter fun w => w.id ≠ id
      matcher := (b.matcher.unregister w.interest.name id).1 }

def addNamespace (b : Buffer) (name : Name) : Buffer :=
  { b with namespaces := b.namespaces.insert name ((b.namespaces.find? name).getD 0 + 1) }

def removeNamespace (b : Buffer) (name : Name) : Buffer × Bool :=
  match b.namespaces.find? name with
  | none => (b, false)
  | some holders =>
    let namespaces :=
      if holders - 1 = 0 then b.namespaces.erase name else b.namespaces.insert name (holders - 1)
    ({ b with namespaces }, true)

/-- Without namespaces every name is admitted, else those that one of them covers. -/
def admits (b : Buffer) (name : Name) : Bool :=
  b.namespaces.size = 0 ||
    (List.range (name.length + 1)).any fun depth => b.namespaces.contains (name.truncate depth)

def describe (b : Buffer) : String :=
  "FlowControlledBuffer \x7b mode: " ++ b.config.mode.describe ++ ", phase: " ++
    b.phase.describe ++ ", capacity: " ++ b.capacity.repr ++ ", len: " ++ b.size.repr ++
    ", pending: " ++ b.pending.length.repr ++ " \x7d"

end Buffer

end NamedContent
