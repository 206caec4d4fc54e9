import NamedContent.Transport.Network

/-!
# The interest server

The server takes interests from the stream, requests a block for each and
sends it to the face from which the interest came. Interests in flight wait
independently of each other. Every interest ends as served, expired or
failed.

The server works in turns, and a turn has a share of so many units. An
interest that is taken, a wait for a block that ends and a sending that ends
take a unit each. An interest in flight that needs a unit when none is left is
deferred: it can go on only after the others that can.
-/

set_option autoImplicit false

namespace NamedContent

inductive ServeStage where
  | fresh
  | requesting
  | sending (channel : Nat) (block : Block)
  deriving DecidableEq, Repr

structure Serve where
  id : Nat
  face : String
  interest : Interest
  stage : ServeStage
  deriving DecidableEq, Repr

inductive Ending where
  | served
  | expired
  | failed
  deriving DecidableEq, Repr

structure ServerStats where
  served : Nat
  expired : Nat
  failed : Nat
  deriving DecidableEq, Repr, Inhabited

def ServerStats.count (t : ServerStats) : Ending → ServerStats
  | .served => { t with served := t.served + 1 }
  | .expired => { t with expired := t.expired + 1 }
  | .failed => { t with failed := t.failed + 1 }

structure Server where
  timeout : Nat
  stats : ServerStats
  inFlight : List Serve
  ready : List Nat
  /-- The deferred serves, the last one first. -/
  deferred : List Nat
  /-- The last turn ended for want of units. -/
  yielded : Bool
  nextId : Nat
  deriving DecidableEq, Repr

namespace Server

def share : Nat := 128

def ofTimeout (timeout : Nat) : Server := ⟨timeout, default, [], [], [], false, 0⟩

def serve? (s : Server) (id : Nat) : Option Serve := s.inFlight.find? fun v => v.id = id

def accept (s : Server) (face : String) (interest : Interest) : Server :=
  { s with
    inFlight := s.inFlight ++ [⟨s.nextId, face, interest, .fresh⟩]
    ready := s.ready ++ [s.nextId]
    nextId := s.nextId + 1 }

/-- A serve in flight can be woken, unless it is woken already. -/
def hears (s : Server) (id : Nat) : Bool := (s.serve? id).isSome && !s.ready.contains id

def wake (s : Server) (id : Nat) : Server :=
  if s.hears id then { s with ready := s.ready ++ [id] } else s

def next? (s : Server) : Option (Serve × Server) :=
  match s.ready with
  | [] => none
  | id :: rest => (s.serve? id).map fun v => (v, { s with ready := rest })

def defer (s : Server) (id : Nat) : Server := { s with deferred := id :: s.deferred }

def yield (s : Server) : Server := { s with yielded := true }

/-- Something waits until the others have gone on. -/
def stepsBack (s : Server) : Bool := s.yielded || s.deferred.any s.hears

def wakeDeferred (s : Server) : Server :=
  s.deferred.foldl wake { s with deferred := [], yielded := false }

def setStage (s : Server) (id : Nat) (stage : ServeStage) : Server :=
  { s with inFlight := s.inFlight.map fun v => if v.id = id then { v with stage } else v }

def finish (s : Server) (id : Nat) (ending : Ending) : Server :=
  { s with
    inFlight := s.inFlight.filter fun v => v.id ≠ id
    ready := s.ready.filter (· ≠ id)
    stats := s.stats.count ending }

end Server

end NamedContent
